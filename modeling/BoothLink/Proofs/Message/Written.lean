import BoothLink.Proofs.Message.Limits

/-!
# What can be written

A message is written field by field into buffers of its own, and what has been written there when a field
fails is dropped with them: a buffer that the message is to stand in gets all of it or nothing. Whether it
can be written depends on the message alone. Its counts are looked at first, then its texts one after the
other, and last the frame around them.

* `Write.Writes`: a write adds certain octets to every buffer, or fails on every buffer.
* **`Message.append_run`**: a message is added as a whole or not at all.
* `Field.width`, `Field.writeAll_judged`: how many octets a row of fields takes, and which text stops it.
* `Message.texts`, `Message.contentSize?`, `Message.Refused`: what is in the way of a message.
* **`Message.encode_error_iff`**: a message fails to be written exactly if something is in its way.
-/

namespace BoothLink

namespace Buffer

variable (buffer : Buffer) (b c : Octets)

theorem append_append : buffer ++ b ++ c = buffer ++ (b ++ c) := by
  apply Array.ext'
  simp

theorem append_toArray : buffer ++ b.toArray = buffer ++ b := by
  apply Array.ext'
  simp

end Buffer

namespace Write

/-- The write adds these octets to every buffer, or fails with this error on every buffer. -/
def Writes (w : Write) (r : Except WireError Octets) : Prop :=
  match r with
  | .ok b => ∀ buffer, w.run buffer = (.ok (), buffer ++ b)
  | .error e => ∀ buffer, (w.run buffer).1 = .error e

variable {w v : Write} {b : Octets} {e : WireError} {r : Except WireError Octets}

theorem writes_put (b : Octets) : (put b).Writes (.ok b) := run_put b

theorem writes_fail (e : WireError) : (fail e).Writes (.error e) := by
  intro buffer
  rw [run_fail]

/-- **What follows a write that does not fail decides**, and comes behind it. -/
theorem Writes.andThen (hw : w.Writes (.ok b)) (hv : v.Writes r) :
    (w.andThen v).Writes (r.map (b ++ ·)) := by
  cases r with
  | ok c =>
    intro buffer
    have hrest := hv (buffer ++ b)
    rw [Buffer.append_append] at hrest
    rw [run_andThen, hw buffer]
    exact hrest
  | error e =>
    intro buffer
    rw [run_andThen, hw buffer]
    exact hv (buffer ++ b)

theorem Writes.andThen_error (hw : w.Writes (.error e)) (v : Write) :
    (w.andThen v).Writes (.error e) := by
  intro buffer
  have h := hw buffer
  rw [run_andThen]
  generalize w.run buffer = found at h
  obtain ⟨answer, rest⟩ := found
  cases h
  rfl

end Write

namespace Field

theorem writes_put (f : Field) : f.put.Writes f.write := by
  unfold put
  cases f.write with
  | ok b => exact Write.writes_put b
  | error e => exact Write.writes_fail e

/-- **Fields one after the other are written as their row.** -/
theorem writes_each (fs : List Field) : (Write.each (fs.map put)).Writes (writeAll fs) := by
  induction fs with
  | nil =>
    intro buffer
    simp [Write.each, Write.done, Write.run]
  | cons f fs ih =>
    have hf := f.writes_put
    rw [List.map_cons, Write.each, writeAll]
    cases hw : f.write with
    | error e =>
      rw [hw] at hf
      exact hf.andThen_error _
    | ok b =>
      rw [hw] at hf
      have hrest := hf.andThen ih
      cases hr : writeAll fs with
      | error e => rwa [hr] at hrest
      | ok c => rwa [hr] at hrest

end Field

theorem Write.writes_words (ws : List Octets) {vs : List Write} {r : Except WireError Octets}
    (h : (each vs).Writes r) : (each (ws.map put ++ vs)).Writes (r.map (ws.flatten ++ ·)) := by
  induction ws with
  | nil => cases r <;> exact h
  | cons b ws ih =>
    have hrest := (writes_put b).andThen ih
    cases r with
    | ok c =>
      rw [List.flatten_cons]
      simpa [Except.map, each] using hrest
    | error e => exact hrest

namespace Message

/-! ## Whole or not at all -/

theorem writes_putBody (m : Message) : m.putBody.Writes m.body := by
  unfold putBody body
  cases m.countsFit with
  | error e => exact Write.writes_fail e
  | ok => exact Write.writes_words _ (Field.writes_each m.fields)

theorem writes_putFrame (content : Buffer) : (putFrame content).Writes (frame content.toList) := by
  unfold putFrame frame
  simp only [Array.length_toList]
  split_ifs with h
  · exact Write.writes_fail _
  · exact (Write.writes_put _).andThen (Write.writes_put _)

theorem writes_putWhole (m : Message) : m.putWhole.Writes m.encode := by
  have hbody := m.writes_putBody
  unfold putWhole encode
  by_cases hframe : m.kind.framing.isFrame = true
  · rw [if_pos hframe]
    cases hb : m.body with
    | ok b =>
      rw [hb] at hbody
      have hframed := writes_putFrame ((#[] : Buffer) ++ b)
      rw [hbody #[]]
      simpa [hframe] using hframed
    | error e =>
      rw [hb] at hbody
      have h := hbody #[]
      generalize m.putBody.run #[] = found at h
      obtain ⟨answer, rest⟩ := found
      cases h
      exact Write.writes_fail e
  · rw [if_neg hframe]
    cases hb : m.body with
    | ok b => simpa [hframe, hb] using hbody
    | error e => simpa [hb] using hbody

/-- **A message is added to a buffer as a whole or not at all**, and as what does not depend on what
the buffer holds. -/
theorem append_run (m : Message) (buffer : Buffer) :
    m.append.run buffer =
      match m.encode with
      | .error e => (.error e, buffer)
      | .ok b => (.ok (), buffer ++ b) := by
  have hwhole := m.writes_putWhole
  rw [run_append]
  cases he : m.encode with
  | ok b =>
    rw [he] at hwhole
    rw [hwhole #[]]
    simp [Buffer.append_toArray]
  | error e =>
    rw [he] at hwhole
    have h := hwhole #[]
    generalize m.putWhole.run #[] = found at h
    obtain ⟨answer, rest⟩ := found
    cases h
    rfl

end Message

/-! ## What is in the way -/

namespace Field

/-- How many octets a text has, without those of its length. -/
def textSize? : Field → Option Nat
  | utf16 s => some (Utf16.encode s.toList).length
  | utf8 s => some (Utf8.encode s.toList).length
  | _ => none

/-- How many octets a field takes. -/
def width : Field → Nat
  | u16 _ => 2
  | u32 _ => 4
  | u64 _ | i64 _ | f64 _ => 8
  | token _ => 16
  | utf16 s => 4 + (Utf16.encode s.toList).length
  | utf8 s => 4 + (Utf8.encode s.toList).length

variable {f : Field} {n : Nat}

theorem write_long (h : f.textSize? = some n) (hlong : lengthLimit < n) :
    f.write = .error (.tooLarge n lengthLimit) := by
  cases f with
  | utf16 s | utf8 s =>
    cases h
    exact if_pos hlong
  | u16 _ | u32 _ | u64 _ | i64 _ | f64 _ | token _ => cases h

theorem write_short (h : ∀ n, f.textSize? = some n → n ≤ lengthLimit) :
    ∃ b, f.write = .ok b ∧ b.length = f.width := by
  cases f with
  | utf16 s | utf8 s => exact ⟨_, counted_ok_iff.mpr ⟨h _ rfl, rfl⟩, by simp [width]⟩
  | u16 _ | u32 _ | u64 _ | i64 _ | f64 _ => exact ⟨_, rfl, by simp [width]⟩
  | token t => exact ⟨_, rfl, t.length_eq⟩

/-- **The first text of a row that no length field can count is in its way**; without one the row is
written, in as many octets as its fields take. -/
theorem writeAll_judged (fs : List Field) :
    match (fs.filterMap textSize?).find? (lengthLimit < ·) with
    | some n => writeAll fs = .error (.tooLarge n lengthLimit)
    | none => ∃ b, writeAll fs = .ok b ∧ b.length = (fs.map width).sum := by
  induction fs with
  | nil => exact ⟨[], rfl, rfl⟩
  | cons f fs ih =>
    by_cases hlong : ∃ n, f.textSize? = some n ∧ lengthLimit < n
    · obtain ⟨n, hn, hlong⟩ := hlong
      simp [hn, hlong, writeAll, write_long hn hlong]
    · have hshort : ∀ n, f.textSize? = some n → n ≤ lengthLimit := fun n hn =>
        Nat.not_lt.mp fun hlt => hlong ⟨n, hn, hlt⟩
      have hskip : ((f :: fs).filterMap textSize?).find? (lengthLimit < ·) =
          (fs.filterMap textSize?).find? (lengthLimit < ·) := by
        cases hf : f.textSize? with
        | none => simp [hf]
        | some n => simp [hf, hshort n hf]
      obtain ⟨b, hb, hwidth⟩ := write_short hshort
      rw [hskip]
      generalize (fs.filterMap textSize?).find? (lengthLimit < ·) = found at ih
      cases found with
      | some n => simp [writeAll, hb, ih]
      | none =>
        obtain ⟨more, hmore, hlen⟩ := ih
        exact ⟨b ++ more, writeAll_cons hb hmore, by simp [hwidth, hlen]⟩

end Field

namespace BeatSample

/-- The fields of the decks and timelines of a sample. -/
theorem double_of_mem {s : BeatSample} {f : Field}
    (h : f ∈ s.decks.flatMap DeckBeat.fields ++ s.timelines.map Field.f64) : ∃ x, f = .f64 x := by
  simp only [List.mem_append, List.mem_flatMap, List.mem_map, DeckBeat.fields, List.mem_cons,
    List.not_mem_nil, or_false] at h
  obtain ⟨d, -, rfl | rfl | rfl⟩ | ⟨x, -, rfl⟩ := h <;> exact ⟨_, rfl⟩

theorem width_records (s : BeatSample) :
    ((s.decks.flatMap DeckBeat.fields ++ s.timelines.map Field.f64).map Field.width).sum =
      24 * s.decks.length + 8 * s.timelines.length := by
  have hdecks : ((s.decks.flatMap DeckBeat.fields).map Field.width).sum = 24 * s.decks.length := by
    rw [List.flatMap_def, List.map_flatten, List.sum_flatten]
    simp [Function.comp_def, DeckBeat.fields, Field.width, Nat.mul_comm]
  have htimelines : ((s.timelines.map Field.f64).map Field.width).sum = 8 * s.timelines.length := by
    simp [Function.comp_def, Field.width, Nat.mul_comm]
  rw [List.map_append, List.sum_append, hdecks, htimelines]

end BeatSample

/-- How many octets a text takes in a message, without those of its length. -/
def textSize (s : String) : Nat := (Utf16.encode s.toList).length

namespace Message

/-- The texts of a message, in the order of its fields. -/
def texts : Message → List String
  | serviceAnnouncement _ service _ => [service]
  | stateSubscribe path _ | stateEmitResponse path _ => [path]
  | stateEmit path json => [path, json]
  | discovery a => [a.source, a.action.wireText, a.softwareName, a.softwareVersion]
  | reference .. | servicesRequest _ | beatStartStream | beatStopStream | beatEmit _ => []

/-- How many octets the frame of a message holds behind its length. -/
def contentSize? : Message → Option Nat
  | stateSubscribe path _ | stateEmitResponse path _ => some (16 + textSize path)
  | stateEmit path json => some (16 + textSize path + textSize json)
  | beatStartStream | beatStopStream => some 4
  | beatEmit s => some (16 + 32 * s.decks.length)
  | serviceAnnouncement .. | reference .. | servicesRequest _ | discovery _ => none

/-- Each deck of a message has its timeline, and there are no more than can be counted. -/
def Counted : Message → Prop
  | beatEmit s => s.decks.length = s.timelines.length ∧ s.decks.length ≤ lengthLimit
  | _ => True

/-- What is in the way of writing a message. -/
inductive Refused : Message → WireError → Prop
  | countMismatch {s : BeatSample} (h : s.decks.length ≠ s.timelines.length) :
      Refused (beatEmit s) (.countMismatch s.decks.length s.timelines.length)
  | manyDecks {s : BeatSample} (h : s.decks.length = s.timelines.length)
      (hlong : lengthLimit < s.decks.length) :
      Refused (beatEmit s) (.tooLarge s.decks.length lengthLimit)
  /-- The first of its texts that no length field can count. -/
  | longText {m : Message} {before after : List String} {s : String}
      (h : m.texts = before ++ s :: after) (hbefore : ∀ t ∈ before, textSize t ≤ lengthLimit)
      (hlong : lengthLimit < textSize s) : Refused m (.tooLarge (textSize s) lengthLimit)
  /-- Counts and texts are no obstacle, but the frame would be too long. -/
  | longContent {m : Message} {n : Nat} (hcounts : m.Counted)
      (htexts : ∀ t ∈ m.texts, textSize t ≤ lengthLimit) (h : m.contentSize? = some n)
      (hlong : frameLimit < n) : Refused m (.tooLarge n frameLimit)

variable {m : Message} {b : Octets} {e : WireError} {n : Nat}

theorem textSizes_fields (m : Message) : m.fields.filterMap Field.textSize? = m.texts.map textSize := by
  cases m with
  | beatEmit s =>
    refine List.filterMap_eq_nil_iff.mpr fun f hf => ?_
    rw [fields, BeatSample.fields, List.mem_cons, List.mem_cons] at hf
    obtain rfl | rfl | hf := hf
    · rfl
    · rfl
    · obtain ⟨x, rfl⟩ := BeatSample.double_of_mem hf
      rfl
  | serviceAnnouncement | reference | servicesRequest | stateSubscribe | stateEmit
    | stateEmitResponse | beatStartStream | beatStopStream | discovery => rfl

theorem countsFit_eq_ok_iff : m.countsFit = .ok () ↔ m.Counted := by
  cases m with
  | beatEmit s =>
    refine ⟨countsFit_beatEmit, fun h => ?_⟩
    rw [countsFit, if_neg (not_not.mpr h.1), if_neg (Nat.not_lt.mpr h.2)]
  | serviceAnnouncement | reference | servicesRequest | stateSubscribe | stateEmit
    | stateEmitResponse | beatStartStream | beatStopStream | discovery => exact iff_of_true rfl trivial

theorem refused_of_countsFit (h : m.countsFit = .error e) : m.Refused e := by
  cases m with
  | beatEmit s =>
    rw [countsFit] at h
    split_ifs at h with hlen hmany
    · cases h
      exact .countMismatch hlen
    · cases h
      exact .manyDecks (not_not.mp hlen) hmany
  | serviceAnnouncement | reference | servicesRequest | stateSubscribe | stateEmit
    | stateEmitResponse | beatStartStream | beatStopStream | discovery => cases h

/-- A message with a text has no counts. -/
theorem counted_of_mem_texts {s : String} (h : s ∈ m.texts) : m.Counted := by
  cases m with
  | beatEmit => cases h
  | serviceAnnouncement | reference | servicesRequest | stateSubscribe | stateEmit
    | stateEmitResponse | beatStartStream | beatStopStream | discovery => trivial

/-- **The first text that no length field can count is in the way of the body**; without one there is a
body, which in a frame has as many octets as its fields and words take. -/
theorem body_judged (hcounts : m.Counted) :
    match m.texts.find? (lengthLimit < textSize ·) with
    | some s => m.body = .error (.tooLarge (textSize s) lengthLimit)
    | none => ∃ b, m.body = .ok b ∧ ∀ n, m.contentSize? = some n → b.length = n := by
  have hrow := Field.writeAll_judged m.fields
  have hfit := countsFit_eq_ok_iff.mpr hcounts
  rw [textSizes_fields, List.find?_map] at hrow
  have hsame : ((fun n => decide (lengthLimit < n)) ∘ textSize) = (lengthLimit < textSize ·) := rfl
  rw [hsame] at hrow
  generalize m.texts.find? (lengthLimit < textSize ·) = found at hrow
  cases found with
  | some s =>
    rw [body, hfit]
    exact congrArg (Except.map _) hrow
  | none =>
    obtain ⟨b, hb, hwidth⟩ := hrow
    refine ⟨m.kind.framing.opening.flatten ++ b, by simp [body, hfit, hb, Except.map], fun n hn => ?_⟩
    rw [List.length_append, hwidth]
    cases m with
    | beatEmit s =>
      cases hn
      have hrecords := s.width_records
      have hopen : (beatEmit s).kind.framing.opening.flatten.length = 4 := rfl
      rw [← hcounts.1] at hrecords
      rw [fields, BeatSample.fields, List.map_cons, List.map_cons, List.sum_cons, List.sum_cons,
        hrecords, hopen]
      simp [Field.width]
      omega
    | stateSubscribe | stateEmit | stateEmitResponse =>
      cases hn
      simp [fields, kind, MessageKind.framing, Framing.opening, stateMagic, numberOctets,
        Field.width, textSize]
      omega
    | beatStartStream | beatStopStream =>
      cases hn
      rfl
    | serviceAnnouncement | reference | servicesRequest | discovery => cases hn

/-- What is in the way of the body of a message is in its way. -/
theorem refused_of_body (h : m.body = .error e) : m.Refused e := by
  cases hfit : m.countsFit with
  | error e' =>
    rw [body, hfit] at h
    cases h
    exact refused_of_countsFit hfit
  | ok =>
    have hjudged := body_judged (countsFit_eq_ok_iff.mp hfit)
    cases hfound : m.texts.find? (lengthLimit < textSize ·) with
    | some s =>
      obtain ⟨hlong, before, after, hsplit, hbefore⟩ := List.find?_eq_some_iff_append.mp hfound
      rw [hfound] at hjudged
      cases h.symm.trans hjudged
      exact .longText hsplit (fun t ht => by simpa using hbefore t ht) (by simpa using hlong)
    | none =>
      rw [hfound] at hjudged
      obtain ⟨b, hb, -⟩ := hjudged
      rw [hb] at h
      cases h

/-- A message that has a body is counted and its texts can be counted; in a frame, the body has the size
that the message says. -/
theorem body_ok (h : m.body = .ok b) :
    m.Counted ∧ (∀ t ∈ m.texts, textSize t ≤ lengthLimit) ∧
      ∀ n, m.contentSize? = some n → b.length = n := by
  have hcounts := countsFit_eq_ok_iff.mp (body_inv h).1
  have hjudged := body_judged hcounts
  cases hfound : m.texts.find? (lengthLimit < textSize ·) with
  | some s =>
    rw [hfound] at hjudged
    cases h.symm.trans hjudged
  | none =>
    rw [hfound] at hjudged
    obtain ⟨b', hb, hlen⟩ := hjudged
    cases h.symm.trans hb
    exact ⟨hcounts, fun t ht => by simpa using List.find?_eq_none.mp hfound t ht, hlen⟩

theorem contentSize?_isSome (m : Message) : m.contentSize?.isSome = m.kind.framing.isFrame := by
  cases m <;> rfl

theorem encode_of_body_error (h : m.body = .error e) : m.encode = .error e := by rw [encode, h]

theorem encode_of_countsFit (h : m.countsFit = .error e) : m.encode = .error e :=
  encode_of_body_error (by rw [body, h])

theorem refused_of_encode (h : m.encode = .error e) : m.Refused e := by
  cases hbody : m.body with
  | error e' =>
    rw [encode_of_body_error hbody] at h
    cases h
    exact refused_of_body hbody
  | ok b =>
    obtain ⟨hcounts, htexts, hlen⟩ := body_ok hbody
    simp only [encode, hbody, frame] at h
    split_ifs at h with hframe hlong
    obtain ⟨n, hn⟩ := Option.isSome_iff_exists.mp (m.contentSize?_isSome.trans hframe)
    cases h
    rw [hlen n hn] at hlong ⊢
    exact .longContent hcounts htexts hn hlong

theorem Refused.encode (h : m.Refused e) : m.encode = .error e := by
  cases h with
  | countMismatch h => exact encode_of_countsFit (if_pos h)
  | manyDecks h hlong =>
    refine encode_of_countsFit ?_
    rw [countsFit, if_neg (not_not.mpr h), if_pos hlong]
  | @longText _ before after s h hbefore hlong =>
    have hmem : s ∈ m.texts := by simp [h]
    have hfound : m.texts.find? (lengthLimit < textSize ·) = some s :=
      List.find?_eq_some_iff_append.mpr ⟨by simpa using hlong, before, after, h, by simpa using hbefore⟩
    have hjudged := body_judged (counted_of_mem_texts hmem)
    rw [hfound] at hjudged
    exact encode_of_body_error hjudged
  | @longContent _ n hcounts htexts h hlong =>
    have hfound : m.texts.find? (lengthLimit < textSize ·) = none :=
      List.find?_eq_none.mpr (by simpa using htexts)
    have hframe : m.kind.framing.isFrame = true := by rw [← contentSize?_isSome, h, Option.isSome_some]
    have hjudged := body_judged hcounts
    rw [hfound] at hjudged
    obtain ⟨b, hb, hlen⟩ := hjudged
    rw [Message.encode, hb]
    simp only [hframe, if_true, frame, hlen n h, hlong]

/-- **Writing a message fails exactly if something is in its way**, and says what. -/
theorem encode_error_iff (m : Message) (e : WireError) : m.encode = .error e ↔ m.Refused e :=
  ⟨refused_of_encode, Refused.encode⟩

end Message

end BoothLink
