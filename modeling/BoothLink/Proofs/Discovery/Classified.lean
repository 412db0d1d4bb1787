import BoothLink.Discovery.Sighting
import BoothLink.Proofs.Message.Canonical
import BoothLink.Proofs.Wire.Rows

/-!
# What a datagram is told to be

Anything may arrive in a datagram. It is too short, or begins with other words than an announcement, or its
fields are read in their order and the first that is not there is what is wrong with it. Only when all six are
there is the action looked at, so that a wrong action is told of whole announcements alone; octets behind the
port make no difference.

* `Announcement.row`: the fields of an announcement; `Read.announcement_run`: it is read as this row.
* `Catalog.decodeDatagram_discovery`, `Catalog.decodeDatagram_unknown`: a datagram by its first octets.
* `Profile.Verdict`: what a datagram is told to be.
* `Profile.classify_of_verdict`, `Profile.exists_verdict`: it is told so, and there is always something.
* **`Profile.classify_eq_iff`**: every datagram is told to be what it is, and nothing else.
-/

namespace BoothLink

/-! ## Announcements as rows -/

namespace Announcement

/-- The types of the fields of an announcement, in their order. -/
def row : List FieldType := [.token, .utf16, .utf16, .utf16, .utf16, .u16]

/-- The announcement whose fields have been read, unless its action is none. -/
def ofRow : List Field → Except WireError Announcement
  | [.token token, .utf16 source, .utf16 text, .utf16 softwareName, .utf16 softwareVersion, .u16 port] =>
    (Action.ofWire text).map fun action => ⟨token, source, action, softwareName, softwareVersion, port⟩
  | _ => .error .truncated

end Announcement

namespace Read

/-- **An announcement is read as the row of its fields**, and then its action is looked at. -/
theorem announcement_run (c : Cursor) : (run announcement c).1 =
    (run (FieldType.readRow Announcement.row) c).1.bind Announcement.ofRow := by
  simp only [announcement, Announcement.row, FieldType.readRow, FieldType.read, run_bind, run_pure]
  rcases run token c with ⟨_ | token, c₁⟩
  · rfl
  dsimp only
  rcases run utf16 c₁ with ⟨_ | source, c₂⟩
  · rfl
  dsimp only
  rcases run utf16 c₂ with ⟨_ | text, c₃⟩
  · rfl
  dsimp only
  rcases run utf16 c₃ with ⟨_ | softwareName, c₄⟩
  · rfl
  dsimp only
  rcases run utf16 c₄ with ⟨_ | softwareVersion, c₅⟩
  · rfl
  dsimp only
  rcases run u16 c₅ with ⟨_ | port, c₆⟩
  · rfl
  dsimp only
  show _ = (Action.ofWire text).map _
  cases Action.ofWire text <;> rfl

end Read

/-! ## Datagrams by their first octets -/

namespace Catalog

variable {b : Octets}

/-- Behind the words of an announcement come its fields. -/
theorem decodeDatagram_discovery (b : Octets) : discovery.decodeDatagram (discoveryMagic ++ b) =
    (Read.run Read.announcement ⟨4, b⟩).1.map .discovery := by
  have hpeek : MessageKind.discovery.peek (discoveryMagic ++ b) = .matched :=
    MessageKind.peek_matched_iff.mpr ⟨by simp [discoveryMagic, MessageKind.framing, Framing.lookahead], rfl⟩
  have hid : discovery.identify (discoveryMagic ++ b) = .ok (some .discovery) := by
    rw [identify, discovery, identifyIn, hpeek]
  have hread : Read.run MessageKind.discovery.reader (Cursor.start (discoveryMagic ++ b)) =
      Read.run MessageKind.discovery.fieldsReader ⟨4, b⟩ := MessageKind.run_bodyReader .discovery b
  rw [decodeDatagram, hid]
  show (MessageKind.discovery.decode (discoveryMagic ++ b)).map (·.1) = _
  rw [MessageKind.decode, hread, MessageKind.fieldsReader, Read.run_bind]
  rcases Read.run Read.announcement ⟨4, b⟩ with ⟨_ | a, c⟩ <;> rfl

theorem decodeDatagram_unknown (h : 4 ≤ b.length) (hmagic : ¬ discoveryMagic <+: b) :
    discovery.decodeDatagram b = .error (.unknownMessage b) := by
  have hpeek : MessageKind.discovery.peek b = .mismatch := by
    rw [MessageKind.peek_eq (k := .discovery) h, if_neg]
    intro hbegins
    obtain ⟨hwords, -⟩ := MessageKind.begins_iff.mp hbegins
    have htake : b.take 4 = discoveryMagic := hwords
    exact hmagic (htake ▸ List.take_prefix 4 b)
  rw [decodeDatagram, identify, discovery, identifyIn, hpeek]
  rfl

end Catalog

/-! ## What a datagram is -/

namespace Profile

/-- What a datagram is told to be. -/
inductive Verdict (p : Profile) (source : Address) (d : Octets) :
    Except DiscoveryError (Option Sighting) → Prop
  | tooShort (h : d.length < 4) : Verdict p source d (.error (.tooShort d.length))
  | unknown (h : 4 ≤ d.length) (hmagic : ¬ discoveryMagic <+: d) :
      Verdict p source d (.error (.protocol (.unknownMessage d)))
  /-- Behind some fields of an announcement there is something wrong with the next. -/
  | fault {fs : List Field} {t : FieldType} {x rest : Octets} {e : WireError}
      (hd : d = discoveryMagic ++ (x ++ rest)) (hx : Field.writeAll fs = .ok x)
      (hfits : ∀ f ∈ fs, f.Fits) (hnext : fs.map Field.type ++ [t] <+: Announcement.row)
      (hfault : t.Fault rest e) : Verdict p source d (.error (.protocol e))
  /-- All fields are there, and the text of the action is that of none. -/
  | action {token : Token} {name text softwareName softwareVersion : String} {port : UInt16}
      {x rest : Octets} (hd : d = discoveryMagic ++ (x ++ rest))
      (hx : Field.writeAll [.token token, .utf16 name, .utf16 text, .utf16 softwareName,
        .utf16 softwareVersion, .u16 port] = .ok x)
      (hfits : ∀ s ∈ [name, text, softwareName, softwareVersion],
        (Utf16.encode s.toList).length ≤ frameLimit)
      (hneither : ∀ action : Action, action.wireText ≠ text) :
      Verdict p source d (.error (.invalidAction text))
  /-- All fields are there, and they are those of an announcement. -/
  | announcement {a : Announcement} {x rest : Octets} (hd : d = discoveryMagic ++ (x ++ rest))
      (hx : Field.writeAll a.fields = .ok x) (hfits : ∀ f ∈ a.fields, f.Fits) :
      Verdict p source d (.ok (if (Device.ofAnnouncement source a).identity = p.identity then none
        else some (Device.ofAnnouncement source a, .ofAction a.action)))

variable {p : Profile} {source : Address} {d b : Octets} {r : Except DiscoveryError (Option Sighting)}

theorem ofWire_neither {text : String} (h : ∀ action : Action, action.wireText ≠ text) :
    Action.ofWire text = .error (.invalidAction text) := by
  rw [Action.ofWire, if_neg (h .howdy).symm, if_neg (h .exit).symm]

/-- What an announcement is told to be goes by its fields. -/
theorem classify_discovery (p : Profile) (b : Octets) (source : Address) :
    p.classify (discoveryMagic ++ b) source =
      match (Read.run (FieldType.readRow Announcement.row) ⟨4, b⟩).1.bind Announcement.ofRow with
      | .error e => .error (.ofWire e)
      | .ok a => .ok (if (Device.ofAnnouncement source a).identity = p.identity then none
          else some (Device.ofAnnouncement source a, .ofAction a.action)) := by
  have hlong : ¬ (discoveryMagic ++ b).length < 4 := by simp [discoveryMagic]
  rw [classify, if_neg hlong, Catalog.decodeDatagram_discovery, Read.announcement_run]
  cases (Read.run (FieldType.readRow Announcement.row) ⟨4, b⟩).1.bind Announcement.ofRow <;> rfl

variable {fs : List Field} {x : Octets}

/-- Fields that were written behind the words of an announcement are found there. -/
theorem spells_of_writeAll (hx : Field.writeAll fs = .ok x) (hfits : ∀ f ∈ fs, f.Fits) (rest : Octets) :
    Cursor.Spells ⟨4, x ++ rest⟩ fs ⟨4 + x.length, rest⟩ := ⟨hfits, x, hx, rfl, rfl⟩

/-- All fields of an announcement are there. -/
theorem classify_row (hx : Field.writeAll fs = .ok x) (hfits : ∀ f ∈ fs, f.Fits)
    (hrow : fs.map Field.type = Announcement.row) (rest : Octets) :
    p.classify (discoveryMagic ++ (x ++ rest)) source =
      match Announcement.ofRow fs with
      | .error e => .error (.ofWire e)
      | .ok a => .ok (if (Device.ofAnnouncement source a).identity = p.identity then none
          else some (Device.ofAnnouncement source a, .ofAction a.action)) := by
  have hread := Read.run_readRow_of_spells (spells_of_writeAll hx hfits rest)
  rw [hrow] at hread
  rw [classify_discovery, hread]
  rfl

/-- **A datagram is told to be what it is.** -/
theorem classify_of_verdict (h : p.Verdict source d r) : p.classify d source = r := by
  cases h with
  | tooShort h => rw [classify, if_pos h]
  | unknown h hmagic =>
    rw [classify, if_neg (Nat.not_lt.mpr h), Catalog.decodeDatagram_unknown h hmagic]
    rfl
  | @fault fs t x rest e hd hx hfits hnext hfault =>
    have hrow := FieldType.readRow_of_fault (spells_of_writeAll hx hfits rest) hnext hfault
    have hwire : DiscoveryError.ofWire e = .protocol e := by cases hfault <;> rfl
    rw [hd, classify_discovery, hrow, ← hwire]
    rfl
  | @action token name text softwareName softwareVersion port x rest hd hx hfits hneither =>
    rw [hd, classify_row hx (by simpa [Field.Fits] using hfits) rfl, Announcement.ofRow,
      ofWire_neither hneither]
    rfl
  | @announcement a x rest hd hx hfits =>
    rw [hd, classify_row hx hfits rfl, Announcement.fields, Announcement.ofRow, Read.ofWire_wireText]
    rfl

/-- Fields of the types of an announcement. -/
theorem exists_of_row (h : fs.map Field.type = Announcement.row) :
    ∃ token name text softwareName softwareVersion port, fs = [.token token, .utf16 name, .utf16 text,
      .utf16 softwareName, .utf16 softwareVersion, .u16 port] := by
  have htoken : ∀ f : Field, f.type = .token → ∃ t, f = .token t := by
    rintro (_ | _ | _ | _ | _ | t | _ | _) ⟨⟩
    exact ⟨t, rfl⟩
  have htext : ∀ f : Field, f.type = .utf16 → ∃ s, f = .utf16 s := by
    rintro (_ | _ | _ | _ | _ | _ | s | _) ⟨⟩
    exact ⟨s, rfl⟩
  have hport : ∀ f : Field, f.type = .u16 → ∃ n, f = .u16 n := by
    rintro (n | _ | _ | _ | _ | _ | _ | _) ⟨⟩
    exact ⟨n, rfl⟩
  simp only [Announcement.row, List.map_eq_cons_iff, List.map_eq_nil_iff] at h
  obtain ⟨f₁, _, rfl, h₁, f₂, _, rfl, h₂, f₃, _, rfl, h₃, f₄, _, rfl, h₄, f₅, _, rfl, h₅, f₆, _, rfl,
    h₆, rfl⟩ := h
  obtain ⟨token, rfl⟩ := htoken f₁ h₁
  obtain ⟨name, rfl⟩ := htext f₂ h₂
  obtain ⟨text, rfl⟩ := htext f₃ h₃
  obtain ⟨softwareName, rfl⟩ := htext f₄ h₄
  obtain ⟨softwareVersion, rfl⟩ := htext f₅ h₅
  obtain ⟨port, rfl⟩ := hport f₆ h₆
  exact ⟨token, name, text, softwareName, softwareVersion, port, rfl⟩

/-- **There is always something that a datagram is.** -/
theorem exists_verdict (p : Profile) (source : Address) (d : Octets) : ∃ r, p.Verdict source d r := by
  by_cases hshort : d.length < 4
  · exact ⟨_, .tooShort hshort⟩
  by_cases hmagic : discoveryMagic <+: d
  · obtain ⟨b, rfl⟩ := hmagic
    have htypes : ∀ t ∈ Announcement.row, t ∈ [.token, .utf16, .u16] := by decide
    obtain ⟨fs, c', hfs, hrow⟩ | ⟨fs, t, c', e, hfs, hnext, he⟩ := FieldType.exists_readRow htypes ⟨4, b⟩
    · obtain ⟨x, hx, rfl, -⟩ := hfs.written
      have hfits := hfs.fits
      obtain ⟨token, name, text, softwareName, softwareVersion, port, rfl⟩ := exists_of_row hrow
      by_cases haction : ∃ action : Action, action.wireText = text
      · obtain ⟨action, rfl⟩ := haction
        exact ⟨_, .announcement (a := ⟨token, name, action, softwareName, softwareVersion, port⟩) rfl hx
          hfits⟩
      · exact ⟨_, .action rfl hx (by simpa [Field.Fits] using hfits) fun action h => haction ⟨action, h⟩⟩
    · obtain ⟨x, hx, rfl, -⟩ := hfs.written
      exact ⟨_, .fault rfl hx hfs.fits hnext he⟩
  · exact ⟨_, .unknown (Nat.not_lt.mp hshort) hmagic⟩

theorem classify_iff_verdict : p.classify d source = r ↔ p.Verdict source d r := by
  refine ⟨fun h => ?_, classify_of_verdict⟩
  obtain ⟨r', hr'⟩ := exists_verdict p source d
  rwa [← h, classify_of_verdict hr']

/-- What is found in a datagram is an announcement. -/
theorem kind_of_decodeDatagram {m : Message} (h : Catalog.discovery.decodeDatagram d = .ok m) :
    m.kind = .discovery := by
  unfold Catalog.decodeDatagram at h
  split at h
  · cases h
  · cases h
  · next k hid =>
    have hk : k = .discovery := by
      rw [Catalog.identify, Catalog.discovery, Catalog.identifyIn] at hid
      split at hid <;> cases hid
      rfl
    cases hdecode : k.decode d with
    | error e =>
      rw [hdecode] at h
      cases h
    | ok found =>
      rw [hdecode] at h
      cases h
      exact (MessageKind.decode_canonical hdecode).1.trans hk

/-- **Every datagram is told to be what it is, and nothing else.** It is too short if it has fewer than four
octets, and unknown if it has four and does not begin with the words of an announcement. It is never refused
for words inside it or for the text of a state, and no other message is ever found in it. -/
theorem classify_eq_iff (p : Profile) (source : Address) (d : Octets) :
    (∀ r, p.classify d source = r ↔ p.Verdict source d r) ∧
      (∀ n, p.classify d source = .error (.tooShort n) ↔ d.length < 4 ∧ n = d.length) ∧
      (∀ b, p.classify d source = .error (.protocol (.unknownMessage b)) ↔
        4 ≤ d.length ∧ ¬ discoveryMagic <+: d ∧ b = d) ∧
      (∀ e, p.classify d source = .error (.protocol e) →
        (∀ expected found, e ≠ .invalidMagic expected found) ∧ ∀ fault, e ≠ .json fault) ∧
      ∀ m, Catalog.discovery.decodeDatagram d = .ok m → m.kind = .discovery := by
  refine ⟨fun r => classify_iff_verdict, fun n => ?_, fun b => ?_, fun e he => ?_,
    fun m => kind_of_decodeDatagram⟩
  · rw [classify_iff_verdict]
    constructor
    · rintro ⟨h⟩
      exact ⟨h, rfl⟩
    · rintro ⟨h, rfl⟩
      exact .tooShort h
  · rw [classify_iff_verdict]
    constructor
    · rintro (_ | ⟨h, hmagic⟩ | ⟨-, -, -, -, hfault⟩)
      · exact ⟨h, hmagic, rfl⟩
      · cases hfault
    · rintro ⟨h, hmagic, rfl⟩
      exact .unknown h hmagic
  · cases classify_iff_verdict.mp he with
    | unknown => exact ⟨nofun, nofun⟩
    | fault _ _ _ _ hfault => cases hfault <;> exact ⟨nofun, nofun⟩

/-- A participant on a desk. -/
def desk : Profile := ⟨⟨.zero, "desk", "booth", "1.1"⟩, 40001⟩

/-- An announcement whose name is longer than the limit, cut behind the length of the name. -/
def longNamed : Octets := discoveryMagic ++ (List.replicate 16 0 ++ [0, 0xA0, 0, 1])

/-- The name is told to be too long, although the datagram is cut as well. -/
theorem classify_eq_iff_longNamed :
    desk.classify longNamed .loopback = .error (.protocol (.tooLarge 10485761 frameLimit)) ∧
      WireError.tooLarge 10485761 frameLimit ≠ .invalidMagic discoveryMagic [] := by
  obtain ⟨hall, -, -, hnever, -⟩ := classify_eq_iff desk .loopback longNamed
  have hlong : desk.classify longNamed .loopback = .error (.protocol (.tooLarge 10485761 frameLimit)) := by
    have htoken : Field.writeAll [.token .zero] = .ok (List.replicate 16 0) := rfl
    refine (hall _).mpr (.fault (t := .utf16) rfl htoken ?_ (by decide) ?_)
    · simp [Field.Fits]
    · exact .tooLarge (b := [0, 0xA0, 0, 1]) (by decide) (by decide)
  exact ⟨hlong, (hnever _ hlong).1 _ _⟩

end Profile

end BoothLink
