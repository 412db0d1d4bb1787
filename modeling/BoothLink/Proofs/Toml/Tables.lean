import BoothLink.Proofs.Toml.Lines

/-!
# Files of tables

A file in which entries with different keys come first, and then headers of different names, each with
entries of different keys, is the table that it looks like.

* `entryLines`, `tableLines`: the lines of entries, and of a table.
* `Fields.put_new`: a field that is not there is added at the end.
* `Draft.add_entries`, `Draft.add_table`: what the lines of entries and of a table add.
* `parse_of_reads`: the fields of a text of lines.
-/

namespace BoothLink.Toml

variable {fields root : Fields} {key name : String} {entries : List (String × Toml)}

/-- The lines of entries. -/
def entryLines (entries : List (String × Toml)) : List Line :=
  entries.map fun e => .entry ⟨[], e.1⟩ e.2

/-- The lines of a table. -/
def tableLines (name : String) (entries : List (String × Toml)) : List Line :=
  .header ⟨[], name⟩ :: entryLines entries

/-- The fields that entries make. -/
def leaves (entries : List (String × Toml)) : Fields := entries.map fun e => (e.1, .leaf e.2)

/-! ## Fields -/

namespace Fields

theorem lookup_new (h : key ∉ fields.map Prod.fst) : fields.lookup key = none := by
  rw [List.lookup_eq_none_iff]
  intro field hfield
  rw [bne_iff_ne]
  rintro rfl
  exact h (List.mem_map_of_mem hfield)

/-- A field that is not there is added at the end, and the last one gets a new content in its place. -/
theorem put_new (h : key ∉ fields.map Prod.fst) (n : Node) :
    fields.put key n = fields ++ [(key, n)] ∧
      ∀ m, Fields.put key m (fields ++ [(key, n)]) = fields ++ [(key, m)] := by
  induction fields with
  | nil => simp [Fields.put]
  | cons field fields ih =>
    obtain ⟨hne, h⟩ : key ≠ field.1 ∧ key ∉ fields.map Prod.fst := by simpa using h
    simp [Fields.put, Ne.symm hne, ih h]

end Fields

theorem fieldValues_append (fields more : Fields) :
    fieldValues (fields ++ more) = fieldValues fields ++ fieldValues more := by
  induction fields with
  | nil => rfl
  | cons field fields ih => simp [fieldValues, ih]

theorem fieldValues_leaves (entries : List (String × Toml)) : fieldValues (leaves entries) = entries := by
  induction entries with
  | nil => rfl
  | cons e entries ih =>
    show (e.1, Node.value (.leaf e.2)) :: fieldValues (leaves entries) = e :: entries
    rw [ih, Node.value]

/-! ## Lines -/

theorem addEntry_new (h : key ∉ fields.map Prod.fst) (v : Toml) (origin : Origin) :
    addEntry ⟨[], key⟩ v origin fields = some (fields ++ [(key, .leaf v)]) := by
  simp [addEntry, within, Fields.lookup_new h, (Fields.put_new h _).1]

namespace Draft

/-- Entries are added one after the other to the table in which they stand, wherever that is. -/
theorem foldlM_entryLines (draft : Fields → Draft)
    (hadd : ∀ fields key v, key ∉ fields.map Prod.fst →
      (draft fields).add (.entry ⟨[], key⟩ v) = some (draft (fields ++ [(key, .leaf v)])))
    (h : (fields.map Prod.fst ++ entries.map Prod.fst).Nodup) :
    (entryLines entries).foldlM Draft.add (draft fields) = some (draft (fields ++ leaves entries)) := by
  induction entries generalizing fields with
  | nil => simp [entryLines, leaves]
  | cons e entries ih =>
    have hnew : e.1 ∉ fields.map Prod.fst := fun hmem =>
      (List.nodup_append.mp h).2.2 _ hmem _ List.mem_cons_self rfl
    have hmore : ((fields ++ [(e.1, Node.leaf e.2)]).map Prod.fst ++ entries.map Prod.fst).Nodup := by
      simpa using h
    have hrest := ih hmore
    rw [List.append_assoc] at hrest
    show ((draft fields).add (.entry ⟨[], e.1⟩ e.2)).bind
      (fun d => (entryLines entries).foldlM Draft.add d) = _
    rw [hadd _ _ _ hnew, Option.bind_some, hrest]
    rfl

/-- **Entries in front of all headers** are added to the file. -/
theorem add_entries (h : (entries.map Prod.fst).Nodup) :
    (entryLines entries).foldlM Draft.add {} = some { root := leaves entries } := by
  refine foldlM_entryLines (fun fields => { root := fields }) ?_ h
  intro fields key v hnew
  simp [Draft.add, within, addEntry_new hnew]

/-- **A header with entries behind it** adds a table to the file. -/
theorem add_table (hname : name ∉ root.map Prod.fst) (h : (entries.map Prod.fst).Nodup)
    (current : List String) : (tableLines name entries).foldlM Draft.add ⟨root, current⟩ =
      some ⟨root ++ [(name, .table .headed (leaves entries))], [name]⟩ := by
  have hheader : Draft.add ⟨root, current⟩ (.header ⟨[], name⟩) =
      some ⟨root ++ [(name, .table .headed [])], [name]⟩ := by
    simp [Draft.add, openTable, within, Fields.lookup_new hname, (Fields.put_new hname _).1]
  have hadd : ∀ fields key v, key ∉ fields.map Prod.fst →
      Draft.add ⟨root ++ [(name, .table .headed fields)], [name]⟩ (.entry ⟨[], key⟩ v) =
        some ⟨root ++ [(name, .table .headed (fields ++ [(key, .leaf v)]))], [name]⟩ := by
    intro fields key v hnew
    have hlookup : (root ++ [(name, Node.table .headed fields)]).lookup name =
        some (Node.table .headed fields) := by
      simp [List.lookup_append, Fields.lookup_new hname]
    simp [Draft.add, within, hlookup, addEntry_new hnew, (Fields.put_new hname _).2]
  rw [tableLines, List.foldlM_cons, hheader, Option.bind_eq_bind, Option.bind_some]
  exact foldlM_entryLines (fun fields => ⟨root ++ [(name, .table .headed fields)], [name]⟩) hadd
    (show (([] : Fields).map Prod.fst ++ entries.map Prod.fst).Nodup from h)

end Draft

/-! ## Files -/

/-- **A text of lines is the table that they make**, if its first character is no mark. -/
theorem parse_of_reads {text : List Char} {lines : List Line} {d : Draft} (h : Reader.Reads text lines)
    (hmark : text.head? ≠ some byteOrderMark) (hlines : lines.foldlM Draft.add {} = some d) :
    parse (String.ofList text) = some (fieldValues d.root) := by
  have hdrop : dropMark text = text := by
    cases text with
    | nil => rfl
    | cons c text => exact if_neg (by simpa using hmark)
  simp [parse, hdrop, h.lines?, hlines]

end BoothLink.Toml
