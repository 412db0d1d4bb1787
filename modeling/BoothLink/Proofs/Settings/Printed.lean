import BoothLink.Proofs.Toml.Tables
import BoothLink.Settings.Printer
import BoothLink.Settings.Reader

/-!
# Settings read as they were printed

The text of settings is a table with a table for each group, and whatever the strings in it are, reading
gives the settings back. The numbers of settings have up to 64 bits, those of a file only 63: there is a
text if none is too large for a file.

* `Settings.numbers`: the numbers of settings.
* `Settings.text?_eq_none`: when there is no text.
* `Settings.reads`: the lines of the text.
* **`Settings.parse_text`**: settings are read as they were printed.
-/

namespace BoothLink

open Toml

variable {text : List Char}

namespace DiscoverySettings

/-- The numbers of how devices are looked for. -/
def numbers (s : DiscoverySettings) : List Nat :=
  [s.port.toNat, s.announceInterval.toNat, s.timeout.toNat]

/-- The entries of how devices are looked for. -/
def entries (s : DiscoverySettings) : List (String × Toml) :=
  [("port", .int s.port.toNat), ("announce_interval_ms", .int s.announceInterval.toNat),
    ("timeout_ms", .int s.timeout.toNat)]

end DiscoverySettings

namespace LinkOptions

/-- The numbers of how connections are made. -/
def numbers (s : LinkOptions) : List Nat :=
  [s.connectTimeout.toNat, s.heartbeatInterval.toNat, s.capacity.toNat]

/-- The entries of how connections are made. -/
def entries (s : LinkOptions) : List (String × Toml) :=
  [("connect_timeout_ms", .int s.connectTimeout.toNat),
    ("heartbeat_interval_ms", .int s.heartbeatInterval.toNat), ("channel_capacity", .int s.capacity.toNat)]

end LinkOptions

/-- The entries of how we present ourselves. -/
def IdentitySettings.entries (s : IdentitySettings) : List (String × Toml) :=
  [("name", .text s.name), ("software_name", .text s.softwareName),
    ("software_version", .text s.softwareVersion)] ++
      (s.token.map fun token => ("token", .text token)).toList

/-- The numbers of settings. -/
def Settings.numbers (s : Settings) : List Nat := s.discovery.numbers ++ s.network.numbers

/-! ## Numbers that are too large -/

theorem DiscoverySettings.chars?_eq_none (s : DiscoverySettings) :
    s.chars? = none ↔ ∃ n ∈ s.numbers, intLimit ≤ n := by
  simp only [DiscoverySettings.chars?, DiscoverySettings.numbers, Settings.natEntry?, writeNat?]
  split_ifs <;> simp <;> omega

theorem LinkOptions.chars?_eq_none (s : LinkOptions) :
    s.chars? = none ↔ ∃ n ∈ s.numbers, intLimit ≤ n := by
  simp only [LinkOptions.chars?, LinkOptions.numbers, Settings.natEntry?, writeNat?]
  split_ifs <;> simp <;> omega

/-- **There is a text if no number is too large for a file.** -/
theorem Settings.text?_eq_none (s : Settings) : s.text? = none ↔ ∃ n ∈ s.numbers, intLimit ≤ n := by
  have hdiscovery := s.discovery.chars?_eq_none
  have hnetwork := s.network.chars?_eq_none
  simp only [Settings.text?, Option.map_eq_none_iff, Settings.chars?, Settings.numbers, List.mem_append,
    or_and_right, exists_or, ← hdiscovery, ← hnetwork]
  cases s.discovery.chars? <;> cases s.network.chars? <;> simp

/-! ## Lines -/

open Reader

theorem Settings.reads_textEntry {key : String} (hkey : Bare key) (value : String) :
    Reads (Settings.textEntry key value) (entryLines [(key, .text value)]) :=
  Reads.writeEntry hkey (Spells.writeText value)

theorem Settings.reads_natEntry {key : String} (hkey : Bare key) {n : Nat}
    (h : Settings.natEntry? key n = some text) : Reads text (entryLines [(key, .int n)]) := by
  unfold Settings.natEntry? writeNat? at h
  split_ifs at h with hn
  · cases h
    exact Reads.writeEntry hkey (Spells.toDigits hn)
  · cases h

/-- The lines of how we present ourselves. -/
theorem IdentitySettings.reads (s : IdentitySettings) :
    Reads s.chars (tableLines "identity" s.entries) := by
  have htoken : Reads ((s.token.map (Settings.textEntry "token")).getD [])
      (entryLines (s.token.map fun token => ("token", Toml.text token)).toList) := by
    cases s.token with
    | none => exact Reads.nil
    | some token => exact Settings.reads_textEntry ⟨by decide, by decide⟩ token
  exact ((((Reads.writeHeader ⟨by decide, by decide⟩).append
    (Settings.reads_textEntry ⟨by decide, by decide⟩ s.name)).append
    (Settings.reads_textEntry ⟨by decide, by decide⟩ s.softwareName)).append
    (Settings.reads_textEntry ⟨by decide, by decide⟩ s.softwareVersion)).append htoken

/-- The lines of how devices are looked for. -/
theorem DiscoverySettings.reads {s : DiscoverySettings} (h : s.chars? = some text) :
    Reads text (tableLines "discovery" s.entries) := by
  simp only [DiscoverySettings.chars?, Option.bind_eq_bind, Option.bind_eq_some_iff] at h
  obtain ⟨port, hport, interval, hinterval, timeout, htimeout, ⟨⟩⟩ := h
  exact (((Reads.writeHeader ⟨by decide, by decide⟩).append
    (Settings.reads_natEntry ⟨by decide, by decide⟩ hport)).append
    (Settings.reads_natEntry ⟨by decide, by decide⟩ hinterval)).append
    (Settings.reads_natEntry ⟨by decide, by decide⟩ htimeout)

/-- The lines of how connections are made. -/
theorem LinkOptions.reads {s : LinkOptions} (h : s.chars? = some text) :
    Reads text (tableLines "network" s.entries) := by
  simp only [LinkOptions.chars?, Option.bind_eq_bind, Option.bind_eq_some_iff] at h
  obtain ⟨connect, hconnect, heartbeat, hheartbeat, capacity, hcapacity, ⟨⟩⟩ := h
  exact (((Reads.writeHeader ⟨by decide, by decide⟩).append
    (Settings.reads_natEntry ⟨by decide, by decide⟩ hconnect)).append
    (Settings.reads_natEntry ⟨by decide, by decide⟩ hheartbeat)).append
    (Settings.reads_natEntry ⟨by decide, by decide⟩ hcapacity)

/-! ## Groups -/

/-- How we present ourselves, read from its entries. -/
theorem IdentitySettings.ofToml_entries (hostName : String) (s : IdentitySettings) :
    IdentitySettings.ofToml hostName (.table s.entries) = some s := by
  obtain ⟨name, softwareName, softwareVersion, token⟩ := s
  cases token <;> rfl

theorem nat?_int (limit n : Nat) : (Toml.int n).nat? limit = if n < limit then some n else none := rfl

theorem word16?_toNat (n : UInt16) : Toml.word16? (.int n.toNat) = some n := by
  rw [Toml.word16?, nat?_int, if_pos (show n.toNat < Nat.pow 2 16 from n.toNat_lt), Option.map_some,
    UInt16.ofNat_toNat]

theorem word64?_toNat (n : UInt64) : Toml.word64? (.int n.toNat) = some n := by
  rw [Toml.word64?, nat?_int, if_pos (show n.toNat < Nat.pow 2 64 from n.toNat_lt), Option.map_some,
    UInt64.ofNat_toNat]

theorem texts?_map (l : List String) : Toml.texts? (.list (l.map .text)) = some l := by
  show (l.map Toml.text).mapM Toml.text? = some l
  induction l with
  | nil => rfl
  | cons s l ih => simp [ih, Toml.text?]

/-- How devices are looked for, read from its entries. -/
theorem DiscoverySettings.ofToml_entries (s : DiscoverySettings) :
    DiscoverySettings.ofToml (.table s.entries) = some s := by
  show (Toml.word16? (.int s.port.toNat)).bind (fun port =>
    (Toml.word64? (.int s.announceInterval.toNat)).bind fun announceInterval =>
      (Toml.word64? (.int s.timeout.toNat)).bind fun timeout =>
        some ⟨port, announceInterval, timeout⟩) = some s
  simp only [word16?_toNat, word64?_toNat, Option.bind_some]

/-- How connections are made, read from its entries. -/
theorem LinkOptions.ofToml_entries (s : LinkOptions) :
    LinkOptions.ofToml (.table s.entries) = some s := by
  show (Toml.word64? (.int s.connectTimeout.toNat)).bind (fun connectTimeout =>
    (Toml.word64? (.int s.heartbeatInterval.toNat)).bind fun heartbeatInterval =>
      (Toml.word64? (.int s.capacity.toNat)).bind fun capacity =>
        some ⟨connectTimeout, heartbeatInterval, capacity⟩) = some s
  simp only [word64?_toNat, Option.bind_some]

/-! ## Files -/

/-- The fields of a file of settings. -/
def Settings.fields (s : Settings) : List (String × Toml) :=
  [("subscriptions", .list (s.subscriptions.map .text)), ("identity", .table s.identity.entries),
    ("discovery", .table s.discovery.entries), ("network", .table s.network.entries)]

theorem Settings.ofFields_fields (hostName : String) (s : Settings) :
    Settings.ofFields hostName s.fields = some s := by
  simp [Settings.ofFields, Settings.fields, Toml.orDefault, List.lookup_cons, IdentitySettings.ofToml_entries,
    DiscoverySettings.ofToml_entries, LinkOptions.ofToml_entries, texts?_map]

/-- The entry in front of the groups. -/
def Settings.leading (s : Settings) : List (String × Toml) :=
  [("subscriptions", .list (s.subscriptions.map .text))]

/-- The lines of settings. -/
def Settings.lines (s : Settings) : List Line :=
  entryLines s.leading ++ tableLines "identity" s.identity.entries ++
    tableLines "discovery" s.discovery.entries ++ tableLines "network" s.network.entries

theorem Settings.reads {s : Settings} (h : s.chars? = some text) : Reads text s.lines := by
  simp only [Settings.chars?, Option.bind_eq_bind, Option.bind_eq_some_iff] at h
  obtain ⟨discovery, hdiscovery, network, hnetwork, ⟨⟩⟩ := h
  have hleading : Reads (writeEntry "subscriptions" (writeTexts s.subscriptions))
      (entryLines s.leading) :=
    Reads.writeEntry ⟨by decide, by decide⟩ (Spells.writeTexts s.subscriptions)
  exact ((hleading.append s.identity.reads).append (DiscoverySettings.reads hdiscovery)).append
    (LinkOptions.reads hnetwork)

theorem IdentitySettings.nodup_entries (s : IdentitySettings) : (s.entries.map Prod.fst).Nodup := by
  cases htoken : s.token <;> simp [IdentitySettings.entries, htoken]

/-- The tables of settings. -/
def Settings.tables (s : Settings) : Fields :=
  leaves s.leading ++ [("identity", .table .headed (leaves s.identity.entries))] ++
    [("discovery", .table .headed (leaves s.discovery.entries))] ++
      [("network", .table .headed (leaves s.network.entries))]

theorem Settings.add_lines (s : Settings) :
    s.lines.foldlM Draft.add {} = some ⟨s.tables, ["network"]⟩ := by
  have hleading : (s.leading.map Prod.fst).Nodup := show ["subscriptions"].Nodup by decide
  have hdiscovery : (s.discovery.entries.map Prod.fst).Nodup :=
    show ["port", "announce_interval_ms", "timeout_ms"].Nodup by decide
  have hnetwork : (s.network.entries.map Prod.fst).Nodup :=
    show ["connect_timeout_ms", "heartbeat_interval_ms", "channel_capacity"].Nodup by decide
  simp only [Settings.lines, List.foldlM_append, Option.bind_eq_bind]
  rw [Draft.add_entries hleading, Option.bind_some,
    Draft.add_table (by simp [leaves, Settings.leading]) s.identity.nodup_entries, Option.bind_some,
    Draft.add_table (by simp [leaves, Settings.leading]) hdiscovery, Option.bind_some,
    Draft.add_table (by simp [leaves, Settings.leading]) hnetwork]
  rfl

theorem Settings.fieldValues_tables (s : Settings) : fieldValues s.tables = s.fields := by
  simp [Settings.tables, fieldValues_append, fieldValues_leaves, Settings.fields, Settings.leading,
    fieldValues, Node.value]

theorem Settings.head_chars {s : Settings} (h : s.chars? = some text) : text.head? = some 's' := by
  simp only [Settings.chars?, Option.bind_eq_bind, Option.bind_eq_some_iff] at h
  obtain ⟨discovery, -, network, -, ⟨⟩⟩ := h
  rfl

theorem Settings.parse_lines {s : Settings} (h : Reads text s.lines) (hhead : text.head? = some 's')
    (hostName : String) : Settings.parse hostName (String.ofList text) = some s := by
  have hparse := parse_of_reads h (by rw [hhead]; decide) s.add_lines
  rw [Settings.parse, hparse, Option.bind_some, s.fieldValues_tables, Settings.ofFields_fields]

/-- **Settings are read as they were printed**, also with one more line end behind them. -/
theorem Settings.parse_text {s : Settings} {text : String} (h : s.text? = some text) (hostName : String) :
    Settings.parse hostName text = some s ∧ Settings.parse hostName (text ++ "\n") = some s := by
  obtain ⟨cs, hcs, rfl⟩ := Option.map_eq_some_iff.mp h
  have hreads := Settings.reads hcs
  have hhead := Settings.head_chars hcs
  have hshown : Reads (cs ++ ['\n']) s.lines := by simpa using hreads.append Reads.blank
  have htext : String.ofList cs ++ "\n" = String.ofList (cs ++ ['\n']) := by
    rw [String.ofList_append]
  rw [htext]
  exact ⟨Settings.parse_lines hreads hhead hostName,
    Settings.parse_lines hshown (by simp [hhead]) hostName⟩

end BoothLink
