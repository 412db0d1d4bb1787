import BoothLink.Console.Session
import BoothLink.Proofs.Files
import BoothLink.Proofs.Settings.Printed
import BoothLink.Proofs.Toml.Fitting

/-!
# Settings are what their text says

Settings can be written unless one of their numbers is too large for a file, and are read from what was
written if their token is one. Settings that were read have a token and numbers that a file can hold, so they
can always be written, and what is read from that is the same.

* `Settings.parse_numbers`: the numbers of settings that were read.
* `Settings.read_text`, `Settings.text?_of_read`: settings from their text, and the other way round.
* `Settings.save_eq_ok`: a file that was written.
* **`Settings.written_loaded`**: all of this.
-/

namespace BoothLink

open Toml

/-! ## Numbers that were read -/

variable {v : Toml} {column : Nat → String → Option Toml}

/-- The numbers in the values of a group fit. -/
theorem column?_fitting (hv : v.Fitting) (h : v.column? = some column) (place : Nat) (key : String) :
    ∀ w ∈ column place key, w.Fitting := by
  intro w hw
  cases hv with
  | table hfields =>
    cases h
    exact hfields _ (mem_of_lookup hw)
  | list hitems =>
    cases h
    exact hitems w (List.mem_of_getElem? hw)
  | moment m =>
    cases h
    cases hw
  | _ => cases h

theorem word64?_lt (hv : v.Fitting) {n : UInt64} (h : v.word64? = some n) : n.toNat < intLimit := by
  obtain ⟨k, hk, rfl⟩ := Option.map_eq_some_iff.mp h
  unfold Toml.nat? at hk
  split at hk
  next m =>
    split at hk
    next =>
      obtain rfl : m = k := Option.some.inj hk
      cases hv with
      | int hfits =>
        simp only [fits, Bool.and_eq_true, decide_eq_true_eq] at hfits
        calc (UInt64.ofNat m).toNat
          _ ≤ m := by
            rw [UInt64.toNat_ofNat']
            exact Nat.mod_le _ _
          _ < intLimit := Int.ofNat_lt.mp hfits.2
    next => cases hk
  next => cases hk

/-- What holds of a default and of whatever is read instead. -/
theorem orDefault_of {α : Type} {P : α → Prop} {read : Toml → Option α} {default a : α}
    {found : Option Toml} (hdefault : P default) (hread : ∀ w ∈ found, ∀ a, read w = some a → P a)
    (h : Toml.orDefault read default found = some a) : P a := by
  cases found with
  | none =>
    cases h
    exact hdefault
  | some w => exact hread w rfl a h

/-- A number that was read or is a default fits. -/
theorem orDefault_word64?_lt {default n : UInt64} (hdefault : default.toNat < intLimit) {found : Option Toml}
    (hfound : ∀ w ∈ found, w.Fitting) (h : Toml.orDefault Toml.word64? default found = some n) :
    n.toNat < intLimit :=
  orDefault_of (P := fun n => n.toNat < intLimit) hdefault (fun w hw _ => word64?_lt (hfound w hw)) h

theorem UInt16.toNat_lt_intLimit (n : UInt16) : n.toNat < intLimit :=
  Nat.lt_of_lt_of_le n.toNat_lt (by decide)

theorem DiscoverySettings.ofToml_numbers (hv : v.Fitting) {s : DiscoverySettings}
    (h : DiscoverySettings.ofToml v = some s) : ∀ n ∈ s.numbers, n < intLimit := by
  obtain ⟨column, hcolumn, h⟩ := Option.bind_eq_some_iff.mp h
  obtain ⟨port, -, h⟩ := Option.bind_eq_some_iff.mp h
  obtain ⟨interval, hinterval, h⟩ := Option.bind_eq_some_iff.mp h
  obtain ⟨timeout, htimeout, ⟨⟩⟩ := Option.bind_eq_some_iff.mp h
  have hcolumn := column?_fitting hv hcolumn
  have hport := UInt16.toNat_lt_intLimit port
  have hinterval := orDefault_word64?_lt (by decide) (hcolumn _ _) hinterval
  have htimeout := orDefault_word64?_lt (by decide) (hcolumn _ _) htimeout
  simp [DiscoverySettings.numbers, hport, hinterval, htimeout]

theorem LinkOptions.ofToml_numbers (hv : v.Fitting) {s : LinkOptions}
    (h : LinkOptions.ofToml v = some s) : ∀ n ∈ s.numbers, n < intLimit := by
  obtain ⟨column, hcolumn, h⟩ := Option.bind_eq_some_iff.mp h
  obtain ⟨connect, hconnect, h⟩ := Option.bind_eq_some_iff.mp h
  obtain ⟨heartbeat, hheartbeat, h⟩ := Option.bind_eq_some_iff.mp h
  obtain ⟨capacity, hcapacity, ⟨⟩⟩ := Option.bind_eq_some_iff.mp h
  have hcolumn := column?_fitting hv hcolumn
  have hconnect := orDefault_word64?_lt (by decide) (hcolumn _ _) hconnect
  have hheartbeat := orDefault_word64?_lt (by decide) (hcolumn _ _) hheartbeat
  have hcapacity := orDefault_word64?_lt (by decide) (hcolumn _ _) hcapacity
  simp [LinkOptions.numbers, hconnect, hheartbeat, hcapacity]

/-- **The numbers of settings that were read fit into a file.** -/
theorem Settings.parse_numbers {hostName text : String} {s : Settings}
    (h : Settings.parse hostName text = some s) : ∀ n ∈ s.numbers, n < intLimit := by
  obtain ⟨fields, hfields, h⟩ := Option.bind_eq_some_iff.mp h
  have hlookup : ∀ key, ∀ w ∈ fields.lookup key, w.Fitting := fun key w hw =>
    parse_fitting hfields _ (mem_of_lookup hw)
  obtain ⟨identity, -, h⟩ := Option.bind_eq_some_iff.mp h
  obtain ⟨discovery, hdiscovery, h⟩ := Option.bind_eq_some_iff.mp h
  obtain ⟨network, hnetwork, h⟩ := Option.bind_eq_some_iff.mp h
  obtain ⟨subscriptions, -, ⟨⟩⟩ := Option.bind_eq_some_iff.mp h
  refine List.forall_mem_append.mpr ⟨?_, ?_⟩
  · refine orDefault_of (P := fun s : DiscoverySettings => ∀ n ∈ s.numbers, n < intLimit) ?_
      (fun w hw _ => DiscoverySettings.ofToml_numbers (hlookup _ w hw)) hdiscovery
    show ∀ n ∈ ({} : DiscoverySettings).numbers, n < intLimit
    decide
  · refine orDefault_of (P := fun s : LinkOptions => ∀ n ∈ s.numbers, n < intLimit) ?_
      (fun w hw _ => LinkOptions.ofToml_numbers (hlookup _ w hw)) hnetwork
    show ∀ n ∈ ({} : LinkOptions).numbers, n < intLimit
    decide

namespace Settings

variable {s : Settings} {text hostName path : String} {files saved : Files} {token : Token}

/-! ## Reading and writing -/

theorem read_eq_ok : read hostName text = .ok s ↔ parse hostName text = some s ∧ ∃ t, s.token = .ok t := by
  unfold read
  constructor
  · intro h
    split at h
    · cases h
    next hparse =>
      split at h
      next t htoken =>
        cases h
        exact ⟨hparse, t, htoken⟩
      next => cases h
  · rintro ⟨hparse, t, htoken⟩
    simp only [hparse, htoken]

/-- Settings with a token are read from their text, and from the text as it is shown. -/
theorem read_text (htoken : s.token = .ok token) (htext : s.text? = some text) (hostName : String) :
    read hostName text = .ok s ∧ read hostName (text ++ "\n") = .ok s :=
  (parse_text htext hostName).imp (fun hparse => read_eq_ok.mpr ⟨hparse, token, htoken⟩)
    fun hparse => read_eq_ok.mpr ⟨hparse, token, htoken⟩

/-- Settings that were read can be written. -/
theorem text?_of_read (h : read hostName text = .ok s) : ∃ text, s.text? = some text := by
  obtain ⟨hparse, -⟩ := read_eq_ok.mp h
  rw [← Option.isSome_iff_exists, ← Option.ne_none_iff_isSome, ne_eq, s.text?_eq_none]
  rintro ⟨n, hn, hlarge⟩
  exact absurd (parse_numbers hparse n hn) (Nat.not_lt.mpr hlarge)

theorem load_eq_ok : load hostName files path = .ok s ↔
    files.contains path = true ∧ ∃ text, files.readText path = .ok text ∧ read hostName text = .ok s := by
  unfold load
  cases hcontains : files.contains path with
  | false => simp
  | true => cases hread : files.readText path <;> simp

/-- What was written is the text. -/
theorem save_eq_ok (h : s.save files path = .ok saved) :
    ∃ text, s.text? = some text ∧ saved.contains path = true ∧ saved.readText path = .ok text := by
  unfold save at h
  split at h
  · cases h
  next text htext =>
    split at h
    next hwritten =>
      cases h
      cases hmade : files.makeFolders path with
      | error e =>
        rw [hmade] at hwritten
        cases hwritten
      | ok made =>
        rw [hmade] at hwritten
        exact ⟨text, htext, Files.readText_writeText hwritten⟩
    next => cases h

/-- A number is too large for a file. -/
theorem text?_eq_none_iff (s : Settings) : s.text? = none ↔ ∃ n ∈ s.numbers, 2 ^ 63 - 1 < n := by
  have hlimit : ∀ n, intLimit ≤ n ↔ 2 ^ 63 - 1 < n := fun _ => Nat.succ_le_iff
  rw [s.text?_eq_none]
  simp only [hlimit]

theorem save_eq_serialize (s : Settings) (files : Files) (path : String) :
    s.save files path = .error .serialize ↔ s.text? = none := by
  unfold save
  cases s.text? with
  | none => simp
  | some text =>
    simp only [reduceCtorEq, iff_false]
    split <;> simp

/-- The command that shows settings. -/
theorem config_show (s : Settings) (output : Option String) (session : Console.Session) :
    (Console.Session.config s false output).run session =
      match s.text? with
      | some text => (.ok (), { session with printed := text :: session.printed })
      | none => (.error (.told (SettingsError.message .serialize)), session) := by
  unfold Console.Session.config Console.Session.settingsText
  cases s.text? <;> rfl

/-! ## Settings and files -/

/-- **Settings and their files.** Settings cannot be written, neither to a file nor to the screen, exactly if
one of their numbers exceeds the greatest one of 64 bits with a sign. Otherwise, if their token is one or
they have none, they are read again, in every field, from their text, from what the screen shows and from the
file. Settings that were loaded from any file can be written, so this holds of them. -/
theorem written_loaded (s : Settings) :
    (s.text? = none ↔ ∃ n ∈ s.numbers, 2 ^ 63 - 1 < n) ∧
    (∀ files path, s.save files path = .error .serialize ↔ ∃ n ∈ s.numbers, 2 ^ 63 - 1 < n) ∧
    (∀ output session, (Console.Session.config s false output).run session =
      match s.text? with
      | some text => (.ok (), { session with printed := text :: session.printed })
      | none => (.error (.told (SettingsError.message .serialize)), session)) ∧
    (∀ token, s.token = .ok token →
      (∀ text, s.text? = some text → ∀ hostName,
        read hostName text = .ok s ∧ read hostName (text ++ "\n") = .ok s) ∧
      ∀ files path saved, s.save files path = .ok saved → ∀ hostName, load hostName saved path = .ok s) ∧
    ∀ hostName files path, load hostName files path = .ok s →
      ∃ text, s.text? = some text ∧ ∀ hostName,
        read hostName text = .ok s ∧ read hostName (text ++ "\n") = .ok s := by
  refine ⟨s.text?_eq_none_iff, fun files path => ?_, s.config_show, fun token htoken => ⟨?_, ?_⟩, ?_⟩
  · rw [save_eq_serialize, s.text?_eq_none_iff]
  · exact fun text htext hostName => read_text htoken htext hostName
  · intro files path saved hsaved hostName
    obtain ⟨text, htext, hcontains, hread⟩ := save_eq_ok hsaved
    exact load_eq_ok.mpr ⟨hcontains, text, hread, (read_text htoken htext hostName).1⟩
  · intro hostName files path hload
    obtain ⟨-, found, -, hread⟩ := load_eq_ok.mp hload
    obtain ⟨-, token, htoken⟩ := read_eq_ok.mp hread
    obtain ⟨text, htext⟩ := text?_of_read hread
    exact ⟨text, htext, read_text htoken htext⟩

/-- Settings with whatever a string can have in it. -/
def awkward : Settings where
  identity :=
    { name := "two\nlines, \"quotes\" and a \\"
      softwareName := "it's \x27\x27\x27 and \"\"\""
      softwareVersion := "\x00\x1f\t\x7f"
      token := some "F405dc14-0223-47f5-8b79-2c8c49335276" }
  subscriptions := ["/Engine/Deck1/Play", "", "'", "\\", "\r\n", "ä♫𝄞"]

/-- A file can be written where nothing is. -/
theorem write_nowhere (content : Octets) :
    ∃ saved, (({} : Files).makeFolders "c").bind (·.write "c" content) = .ok saved := by
  have hsplit : Way.split "c" = ["c"] := by
    rw [Way.split, String.splitOn, if_neg (by decide), String.splitOnAux, if_neg (by decide),
      if_neg (by decide), String.splitOnAux, if_pos (by decide)]
    decide
  have hstart : Way.start "c" = Way.here := if_neg (by simp)
  have hcheck : Files.checkPath "c" = .ok () := by decide
  have hslash : "c".endsWith "/" = false := by cbv
  simp only [Files.makeFolders, Files.write, Files.locate, hcheck, hsplit, hstart, hslash, bind, Except.bind]
  exact ⟨_, rfl⟩

theorem written_loaded_awkward :
    (∃ text, awkward.text? = some text ∧ read "booth" text = .ok awkward) ∧
    (∃ saved, awkward.save {} "c" = .ok saved ∧ load "booth" saved "c" = .ok awkward) ∧
      ({ awkward with discovery := { timeout := 9223372036854775808 } } : Settings).text? = none := by
  obtain ⟨htext, -, -, hread, hload⟩ := written_loaded awkward
  obtain ⟨token, htoken⟩ : ∃ token, awkward.token = .ok token := ⟨_, rfl⟩
  obtain ⟨hread, hsaved⟩ := hread token htoken
  have hfits : awkward.text? ≠ none := by
    rw [ne_eq, htext]
    decide
  obtain ⟨written, hwritten⟩ := Option.ne_none_iff_exists'.mp hfits
  obtain ⟨saved, hwrite⟩ := write_nowhere (Utf8.encode written.toList)
  have hsave : awkward.save {} "c" = .ok saved := by
    simp only [save, hwritten, Files.writeText, hwrite]
  obtain ⟨text, htext, hagain⟩ := hload "booth" saved "c" (hsaved {} "c" saved hsave "booth")
  refine ⟨⟨text, htext, (hread text htext "booth").1⟩, ⟨saved, hsave, hsaved {} "c" saved hsave "booth"⟩, ?_⟩
  exact (written_loaded _).1.mpr ⟨9223372036854775808, by decide, by decide⟩

end Settings

end BoothLink
