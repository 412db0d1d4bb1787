import Mathlib.Tactic.SplitIfs
import BoothLink.Toml.Reader

/-!
# Whole numbers that are read fit into 64 bits

Wherever a whole number stands in a file, in a list, a table in braces or under a header, it is one of 64
bits: numbers beyond are refused, and no line that is added changes a number that was read.

* `Toml.Fitting`, `Node.Fitting`, `Fields.Fitting`: values whose whole numbers fit.
* `Reader.value_fitting`: a value that is read.
* `within_fitting`, `Draft.add_fitting`: tables after a line.
* **`parse_fitting`**: a file that is read.
-/

namespace BoothLink.Toml

/-- A value whose whole numbers fit. -/
inductive Fitting : Toml → Prop where
  | text (s : String) : Fitting (.text s)
  | int {n : Int} (h : fits n = true) : Fitting (.int n)
  | real (x : Binary64) : Fitting (.real x)
  | flag (b : Bool) : Fitting (.flag b)
  | moment (m : Moment) : Fitting (.moment m)
  | list {items : List Toml} (h : ∀ v ∈ items, Fitting v) : Fitting (.list items)
  | table {fields : List (String × Toml)} (h : ∀ field ∈ fields, Fitting field.2) :
    Fitting (.table fields)

/-- What a key holds, if the whole numbers in it fit. -/
inductive Node.Fitting : Node → Prop where
  | leaf {v : Toml} (h : v.Fitting) : Fitting (.leaf v)
  | table {origin : Origin} {fields : List (String × Node)} (h : ∀ field ∈ fields, Fitting field.2) :
    Fitting (.table origin fields)
  | tables {before : List (List (String × Node))} {current : List (String × Node)}
    (hbefore : ∀ fields ∈ before, ∀ field ∈ fields, Fitting field.2)
    (hcurrent : ∀ field ∈ current, Fitting field.2) : Fitting (.tables before current)

/-- Fields in which all whole numbers fit. -/
def Fields.Fitting (fields : Fields) : Prop := ∀ field ∈ fields, field.2.Fitting

variable {v : Toml} {cs rest : List Char}

theorem mem_of_lookup {α : Type} {l : List (String × α)} {key : String} {a : α}
    (h : l.lookup key = some a) : (key, a) ∈ l := by
  obtain ⟨before, after, hl, -⟩ := List.lookup_eq_some_iff.mp h
  simp [hl]

/-! ## Numbers -/

namespace Number

theorem int?_fitting {n : Int} (h : int? n = some v) : v.Fitting := by
  unfold int? at h
  split at h
  next hfits =>
    cases h
    exact .int hfits
  next => cases h

theorem real?_fitting {isNegative : Bool} {significand : Nat} {e : Int}
    (h : real? isNegative significand e = some v) : v.Fitting := by
  unfold real? at h
  extract_lets x at h
  split at h
  · cases h
  · cases h
    exact .real x

theorem decimal?_fitting {isNegative : Bool} (h : decimal? isNegative cs = some (v, rest)) :
    v.Fitting := by
  unfold decimal? at h
  obtain ⟨⟨digits, cs⟩, -, h⟩ := Option.bind_eq_some_iff.mp h
  split at h
  split at h
  · obtain ⟨⟨fraction, cs⟩, -, h⟩ := Option.bind_eq_some_iff.mp h
    obtain ⟨⟨e, cs⟩, -, h⟩ := Option.bind_eq_some_iff.mp h
    obtain ⟨x, hx, ⟨⟩⟩ := Option.bind_eq_some_iff.mp h
    exact real?_fitting hx
  · extract_lets n at h
    split at h
    · obtain ⟨⟨e, cs⟩, -, h⟩ := Option.bind_eq_some_iff.mp h
      obtain ⟨x, hx, ⟨⟩⟩ := Option.bind_eq_some_iff.mp h
      exact real?_fitting hx
    · obtain ⟨x, hx, ⟨⟩⟩ := Option.bind_eq_some_iff.mp h
      exact int?_fitting hx

theorem signed?_fitting (h : signed? cs = some (v, rest)) : v.Fitting := by
  unfold signed? at h
  split at h
  split at h
  · cases h
    exact .real _
  · cases h
    exact .real _
  · exact decimal?_fitting h

/-- **A number that is read fits.** -/
theorem read?_fitting (h : read? cs = some (v, rest)) : v.Fitting := by
  unfold read? at h
  split at h
  · split at h
    · obtain ⟨⟨digits, cs⟩, -, h⟩ := Option.bind_eq_some_iff.mp h
      obtain ⟨x, hx, ⟨⟩⟩ := Option.bind_eq_some_iff.mp h
      exact int?_fitting hx
    · exact signed?_fitting h
  · exact signed?_fitting h

end Number

/-! ## Tables -/

namespace Fields

variable {fields : Fields} {key : String} {n : Node}

theorem Fitting.put (h : fields.Fitting) (hn : n.Fitting) : (fields.put key n).Fitting := by
  induction fields with
  | nil => simpa [Fields.put, Fields.Fitting] using hn
  | cons field fields ih =>
    obtain ⟨hfield, hfields⟩ := List.forall_mem_cons.mp h
    rw [Fields.put.eq_def]
    simp only
    split
    · exact List.forall_mem_cons.mpr ⟨hn, hfields⟩
    · exact List.forall_mem_cons.mpr ⟨hfield, ih hfields⟩

theorem Fitting.lookup (h : fields.Fitting) (hn : List.lookup key fields = some n) : n.Fitting :=
  h _ (mem_of_lookup hn)

end Fields

/-- **A change that keeps numbers in bounds does so wherever it is made.** -/
theorem within_fitting {made : Origin} {change : Origin → Fields → Option Fields}
    (hchange : ∀ origin fields changed, fields.Fitting → change origin fields = some changed →
      changed.Fitting) {path : List String} {origin : Origin} {fields changed : Fields}
    (hfields : fields.Fitting) (h : within made change path origin fields = some changed) :
    changed.Fitting := by
  induction path generalizing origin fields changed with
  | nil => exact hchange _ _ _ hfields h
  | cons key path ih =>
    unfold within at h
    split at h
    next =>
      obtain ⟨sub, hsub, rfl⟩ := Option.map_eq_some_iff.mp h
      exact hfields.put (.table (ih (List.forall_mem_nil _) hsub))
    next => cases h
    next hlookup =>
      have hnode := hfields.lookup hlookup
      split at h
      · cases h
      · obtain ⟨sub, hsub, rfl⟩ := Option.map_eq_some_iff.mp h
        cases hnode with
        | table hinside => exact hfields.put (.table (ih hinside hsub))
    next hlookup =>
      obtain ⟨sub, hsub, rfl⟩ := Option.map_eq_some_iff.mp h
      cases hfields.lookup hlookup with
      | tables hbefore hcurrent => exact hfields.put (.tables hbefore (ih hcurrent hsub))

theorem addEntry_fitting {p : Path} {origin : Origin} {fields changed : Fields} (hv : v.Fitting)
    (hfields : fields.Fitting) (h : addEntry p v origin fields = some changed) : changed.Fitting := by
  refine within_fitting ?_ hfields h
  intro origin fields changed hfields h
  split at h
  · cases h
  · split at h
    · cases h
    · cases h
      exact hfields.put (.leaf hv)

theorem openTable_fitting {p : Path} {root changed : Fields} (hroot : root.Fitting)
    (h : openTable p root = some changed) : changed.Fitting := by
  refine within_fitting ?_ hroot h
  intro origin fields changed hfields h
  split at h
  next =>
    cases h
    exact hfields.put (.table nofun)
  next hlookup =>
    cases h
    cases hfields.lookup hlookup with
    | table hinside => exact hfields.put (.table hinside)
  next => cases h

theorem openItem_fitting {p : Path} {root changed : Fields} (hroot : root.Fitting)
    (h : openItem p root = some changed) : changed.Fitting := by
  refine within_fitting ?_ hroot h
  intro origin fields changed hfields h
  split at h
  next =>
    cases h
    exact hfields.put (.tables nofun nofun)
  next hlookup =>
    cases h
    cases hfields.lookup hlookup with
    | tables hbefore hcurrent =>
      exact hfields.put (.tables (List.forall_mem_cons.mpr ⟨hcurrent, hbefore⟩) nofun)
  next => cases h

/-! ## Values of tables -/

mutual

theorem Node.Fitting.value : ∀ {n : Node}, n.Fitting → n.value.Fitting
  | .leaf _, .leaf h => h
  | .table _ fields, .table h => .table (fieldValues_fitting fields h)
  | .tables before current, .tables hbefore hcurrent => by
    refine .list (itemValues_fitting before _ hbefore ?_)
    exact List.forall_mem_singleton.mpr (.table (fieldValues_fitting current hcurrent))

theorem fieldValues_fitting : ∀ fields : List (String × Node), (∀ field ∈ fields, field.2.Fitting) →
    ∀ field ∈ fieldValues fields, field.2.Fitting
  | [], _ => List.forall_mem_nil _
  | (_, _) :: fields, h => by
    obtain ⟨hfield, hfields⟩ := List.forall_mem_cons.mp h
    exact List.forall_mem_cons.mpr ⟨hfield.value, fieldValues_fitting fields hfields⟩

theorem itemValues_fitting : ∀ (before : List (List (String × Node))) (others : List Toml),
    (∀ fields ∈ before, ∀ field ∈ fields, field.2.Fitting) → (∀ v ∈ others, v.Fitting) →
      ∀ v ∈ itemValues others before, v.Fitting
  | [], _, _, hothers => hothers
  | fields :: before, others, hbefore, hothers => by
    obtain ⟨hfields, hbefore⟩ := List.forall_mem_cons.mp hbefore
    refine itemValues_fitting before _ hbefore (List.forall_mem_cons.mpr ⟨?_, hothers⟩)
    exact .table (fieldValues_fitting fields hfields)

end

/-! ## Values that are read -/

namespace Reader

theorem scalar?_fitting (h : scalar? cs = some (v, rest)) : v.Fitting := by
  unfold scalar? at h
  split at h
  · cases h
    exact .moment _
  · exact Number.read?_fitting h

/-- In so many steps only whole numbers that fit are read; those in a list or a table do if those before
them do. Values, items and pairs call each other with fewer steps, so one induction carries all three. -/
structure ReadsFitting (steps : Nat) : Prop where
  value : ∀ {depth cs v rest}, value steps depth cs = some (v, rest) → v.Fitting
  items : ∀ {depth done cs v rest}, (∀ v ∈ done, v.Fitting) →
    items steps depth done cs = some (v, rest) → v.Fitting
  pairs : ∀ {depth done cs v rest}, Fields.Fitting done →
    pairs steps depth done cs = some (v, rest) → v.Fitting

variable {steps depth : Nat}

theorem ReadsFitting.value_succ (ih : ReadsFitting steps)
    (h : Reader.value (steps + 1) depth cs = some (v, rest)) : v.Fitting := by
  rw [Reader.value.eq_def] at h
  simp only at h
  split at h
  · cases h
  split_ifs at h
  · obtain ⟨⟨s, _⟩, -, ⟨⟩⟩ := Option.map_eq_some_iff.mp h
    exact .text s
  · split at h
    · cases h
    · exact ih.items (List.forall_mem_nil _) h
  · split at h
    · cases h
    · split at h
      · cases h
        exact .table (List.forall_mem_nil _)
      · exact ih.pairs (List.forall_mem_nil _) h
  · obtain ⟨_, -, ⟨⟩⟩ := Option.map_eq_some_iff.mp h
    exact .flag true
  · obtain ⟨_, -, ⟨⟩⟩ := Option.map_eq_some_iff.mp h
    exact .flag false
  · exact scalar?_fitting h

theorem ReadsFitting.items_succ (ih : ReadsFitting steps) {done : List Toml}
    (hdone : ∀ v ∈ done, v.Fitting) (h : Reader.items (steps + 1) depth done cs = some (v, rest)) :
    v.Fitting := by
  have hlist : ∀ done : List Toml, (∀ v ∈ done, v.Fitting) → Toml.Fitting (.list done.reverse) :=
    fun done hdone => .list fun v hv => hdone v (List.mem_reverse.mp hv)
  rw [Reader.items.eq_def] at h
  simp only at h
  split at h
  · cases h
    exact hlist done hdone
  split at h
  · cases h
  next found _ hvalue =>
    have hdone := List.forall_mem_cons.mpr ⟨ih.value hvalue, hdone⟩
    split at h
    · cases h
      exact hlist (found :: done) hdone
    · exact ih.items hdone h
    · cases h

theorem ReadsFitting.pairs_succ (ih : ReadsFitting steps) {done : Fields} (hdone : done.Fitting)
    (h : Reader.pairs (steps + 1) depth done cs = some (v, rest)) : v.Fitting := by
  rw [Reader.pairs.eq_def] at h
  simp only at h
  split at h
  · split at h
    · cases h
    next hvalue =>
      split at h
      next hadd _ =>
        cases h
        exact .table (fieldValues_fitting _ (addEntry_fitting (ih.value hvalue) hdone hadd))
      next hadd _ => exact ih.pairs (addEntry_fitting (ih.value hvalue) hdone hadd) h
      next => cases h
  · cases h

/-- **The whole numbers of a value that is read fit.** -/
theorem readsFitting (steps : Nat) : ReadsFitting steps := by
  induction steps with
  | zero => exact ⟨nofun, nofun, nofun⟩
  | succ steps ih => exact ⟨ih.value_succ, ih.items_succ, ih.pairs_succ⟩

end Reader

/-! ## Files -/

/-- A line whose whole numbers fit. -/
def Line.Fitting : Line → Prop
  | .entry _ v => v.Fitting
  | _ => True

theorem Reader.line?_fitting {steps : Nat} {line : Line} (h : line? steps cs = some (some line, rest)) :
    line.Fitting := by
  unfold line? at h
  split at h
  · cases h
  · obtain ⟨⟨p, cs⟩, -, h⟩ := Option.bind_eq_some_iff.mp h
    obtain ⟨cs, -, h⟩ := Option.bind_eq_some_iff.mp h
    obtain ⟨rest, -, ⟨⟩⟩ := Option.bind_eq_some_iff.mp h
    trivial
  · obtain ⟨⟨p, cs⟩, -, h⟩ := Option.bind_eq_some_iff.mp h
    obtain ⟨cs, -, h⟩ := Option.bind_eq_some_iff.mp h
    obtain ⟨rest, -, ⟨⟩⟩ := Option.bind_eq_some_iff.mp h
    trivial
  · split at h
    · obtain ⟨rest, -, ⟨⟩⟩ := Option.map_eq_some_iff.mp h
    · obtain ⟨⟨p, cs⟩, -, h⟩ := Option.bind_eq_some_iff.mp h
      obtain ⟨cs, -, h⟩ := Option.bind_eq_some_iff.mp h
      obtain ⟨⟨v, cs⟩, hvalue, h⟩ := Option.bind_eq_some_iff.mp h
      obtain ⟨rest, -, ⟨⟩⟩ := Option.bind_eq_some_iff.mp h
      exact (readsFitting steps).value hvalue

theorem Reader.lines?_fitting {steps : Nat} {lines : List Line} (h : lines? steps cs = some lines) :
    ∀ line ∈ lines, line.Fitting := by
  induction steps generalizing cs lines with
  | zero =>
    cases cs with
    | nil =>
      cases h
      exact List.forall_mem_nil _
    | cons c cs => cases h
  | succ steps ih =>
    cases cs with
    | nil =>
      cases h
      exact List.forall_mem_nil _
    | cons c cs =>
      rw [lines?.eq_def] at h
      simp only at h
      split at h
      · cases h
      next found rest hline =>
        obtain ⟨more, hmore, rfl⟩ := Option.map_eq_some_iff.mp h
        refine List.forall_mem_append.mpr ⟨fun line hmem => ?_, ih hmore⟩
        rw [Option.mem_toList] at hmem
        cases hmem
        exact line?_fitting hline

/-- The tables after a line whose numbers fit. -/
theorem Draft.add_fitting {d d' : Draft} {line : Line} (hline : line.Fitting) (hd : d.root.Fitting)
    (h : d.add line = some d') : d'.root.Fitting := by
  cases line with
  | entry p v =>
    obtain ⟨root, hroot, rfl⟩ := Option.map_eq_some_iff.mp h
    exact within_fitting (fun _ _ _ hfields hadd => addEntry_fitting hline hfields hadd) hd hroot
  | header p =>
    obtain ⟨root, hroot, rfl⟩ := Option.map_eq_some_iff.mp h
    exact openTable_fitting hd hroot
  | item p =>
    obtain ⟨root, hroot, rfl⟩ := Option.map_eq_some_iff.mp h
    exact openItem_fitting hd hroot

theorem Draft.foldlM_fitting {lines : List Line} {d d' : Draft} (hlines : ∀ line ∈ lines, line.Fitting)
    (hd : d.root.Fitting) (h : lines.foldlM Draft.add d = some d') : d'.root.Fitting := by
  induction lines generalizing d with
  | nil =>
    cases h
    exact hd
  | cons line lines ih =>
    obtain ⟨hline, hlines⟩ := List.forall_mem_cons.mp hlines
    rw [List.foldlM_cons] at h
    obtain ⟨mid, hmid, h⟩ := Option.bind_eq_some_iff.mp h
    exact ih hlines (Draft.add_fitting hline hd hmid) h

/-- **The whole numbers of a file that is read fit.** -/
theorem parse_fitting {s : String} {fields : List (String × Toml)} (h : parse s = some fields) :
    ∀ field ∈ fields, field.2.Fitting := by
  obtain ⟨lines, hlines, h⟩ := Option.bind_eq_some_iff.mp h
  obtain ⟨d, hd, ⟨⟩⟩ := Option.bind_eq_some_iff.mp h
  have hempty : ({} : Draft).root.Fitting := List.forall_mem_nil _
  exact fieldValues_fitting _ (Draft.foldlM_fitting (Reader.lines?_fitting hlines) hempty hd)

end BoothLink.Toml
