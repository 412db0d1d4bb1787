import BoothLink.Json.Printer
import BoothLink.Json.Reader
import BoothLink.Proofs.Decimal.Written

/-!
# JSON values read as they were written

The compact text of a value, without doubles and nested no deeper than is read, is read as the same value,
its fields in the order of their keys.

* `Json.Plain`: such values; `Json.tidy`: a value with its fields in order.
* `Text.readOnto_escape`, `Text.read_quote`: strings.
* `Number.read_toDigits`: whole numbers.
* **`Json.Plain.value_chars`**: a value at the front of a text.
* **`Json.Plain.parse_print`**: a value that is the whole of a text.
-/

namespace BoothLink.Json

/-! ## Values and their order -/

/-- A value of whole numbers that fit 64 bits, unsigned or signed, and of no doubles, in which arrays and
objects nest so deep at most. -/
inductive Plain : Nat → Json → Prop
  | null {depth : Nat} : Plain depth null
  | bool {depth : Nat} (b : Bool) : Plain depth (bool b)
  | int {depth : Nat} {n : Int} (low : -2 ^ 63 ≤ n) (high : n < 2 ^ 64) : Plain depth (int n)
  | str {depth : Nat} (s : String) : Plain depth (str s)
  | arr {depth : Nat} {items : List Json} (h : ∀ v ∈ items, Plain depth v) : Plain (depth + 1) (arr items)
  | obj {depth : Nat} {fields : List (String × Json)} (h : ∀ f ∈ fields, Plain depth f.2) :
      Plain (depth + 1) (obj fields)

mutual

/-- A value with the fields of its objects in the order of their keys, of equal keys the last one. -/
def tidy : Json → Json
  | arr items => arr (tidyItems items)
  | obj fields => object (tidyFields fields)
  | v => v

def tidyItems : List Json → List Json
  | [] => []
  | v :: vs => tidy v :: tidyItems vs

def tidyFields : List (String × Json) → List (String × Json)
  | [] => []
  | (k, v) :: fs => (k, tidy v) :: tidyFields fs

end

/-- Fields put in their places after others. -/
def insertAll (done fs : List (String × Json)) : List (String × Json) :=
  fs.foldl (fun done (k, v) => insert k v done) done

/-! ## Strings -/

namespace Text

/-- A control character in hexadecimal digits is read as itself. -/
theorem unit?_hexPair {n : Nat} (h : n < 32) :
    unit? '0' '0' (Octets.hexDigit (n / 16)) (Octets.hexDigit (n % 16)) = some (UInt16.ofNat n) ∧
      Utf16.isLow (UInt16.ofNat n) = false ∧ Utf16.isHigh (UInt16.ofNat n) = false ∧
        (UInt16.ofNat n).toNat = n := by
  revert n
  decide

/-- **A character as it is written is read as itself.** -/
theorem readOnto_escape (done : List Char) (c : Char) (rest : List Char) :
    readOnto done (escape c ++ rest) = readOnto (c :: done) rest := by
  unfold escape
  split_ifs with hquote hback hline hreturn htab hbell hfeed hcontrol
  · subst hquote
    rfl
  · subst hback
    rfl
  · subst hline
    rfl
  · subst hreturn
    rfl
  · subst htab
    rfl
  · have hc : c = '\x08' := Char.toNat_inj.mp hbell
    subst hc
    rfl
  · have hc : c = '\x0c' := Char.toNat_inj.mp hfeed
    subst hc
    rfl
  · obtain ⟨hunit, hlow, hhigh, hsame⟩ := unit?_hexPair hcontrol
    have hoctet : (UInt8.ofNat c.toNat).toNat = c.toNat := by
      rw [UInt8.toNat_ofNat']
      omega
    have hc : Char.ofNat (UInt16.ofNat c.toNat).toNat = c := by rw [hsame, Char.ofNat_toNat]
    rw [Octets.hexPair, hoctet]
    simp only [List.cons_append, List.nil_append, readOnto, hunit, hlow, hhigh, hc]
    rfl
  · rw [List.singleton_append, readOnto.eq_def]
    simp only [if_neg hquote, if_neg hcontrol, if_pos (show c ≠ '\\' from hback)]

theorem readOnto_quote (done s rest : List Char) :
    readOnto done (s.flatMap escape ++ '"' :: rest) = .ok (done.reverse ++ s, rest) := by
  induction s generalizing done with
  | nil =>
    rw [List.append_nil, List.flatMap_nil, List.nil_append, readOnto.eq_def]
    rfl
  | cons c s ih =>
    rw [List.flatMap_cons, List.append_assoc, readOnto_escape, ih]
    simp

/-- A string as it is written is read as itself. -/
theorem read_quote (s : String) (rest : List Char) :
    read (s.toList.flatMap escape ++ '"' :: rest) = .ok (s, rest) := by
  rw [read, readOnto_quote]
  simp [Except.map]

end Text

/-! ## Numbers -/

/-- Nothing that could go on a number. -/
def Ends (rest : List Char) : Prop :=
  ∀ c ∈ rest.head?, Number.isDigit c = false ∧ c ≠ '.' ∧ c ≠ 'e' ∧ c ≠ 'E'

namespace Number

theorem digit?_of_decimal {c : Char} (h : 48 ≤ c.toNat ∧ c.toNat ≤ 57) :
    digit? c = some (c.toNat - 48) := if_pos h

theorem gather_digits {bound n count : Nat} {ds rest : List Char}
    (hds : ∀ c ∈ ds, 48 ≤ c.toNat ∧ c.toNat ≤ 57) (hbound : Nat.ofDigitChars 10 ds n ≤ bound)
    (hrest : ∀ c ∈ rest.head?, isDigit c = false) :
    gather bound n count (ds ++ rest) = (Nat.ofDigitChars 10 ds n, count + ds.length, rest) := by
  induction ds generalizing n count with
  | nil =>
    cases rest with
    | nil => rfl
    | cons c rest =>
      have hc : digit? c = none := by
        simpa [isDigit] using hrest c rfl
      rw [List.nil_append, gather, hc]
      rfl
  | cons c ds ih =>
    obtain ⟨hc, hds⟩ := List.forall_mem_cons.mp hds
    have hstep : Nat.ofDigitChars 10 (c :: ds) n = Nat.ofDigitChars 10 ds (n * 10 + (c.toNat - 48)) := by
      rw [Nat.ofDigitChars_cons, Nat.mul_comm 10 n]
      rfl
    rw [hstep] at hbound ⊢
    have hle := Digits.le_ofDigitChars ds (n * 10 + (c.toNat - 48))
    rw [List.cons_append, gather, digit?_of_decimal hc]
    simp only [if_pos (Nat.le_trans hle hbound)]
    rw [ih hds hbound, List.length_cons, Nat.add_right_comm, Nat.add_assoc]

theorem afterWhole_ends {rest : List Char} (h : Ends rest) (isNegative : Bool) (n : Nat) :
    afterWhole isNegative n rest = .ok (whole isNegative n, rest) := by
  unfold afterWhole
  split
  · exact absurd rfl (h _ rfl).2.1
  · exact absurd rfl (h _ rfl).2.2.1
  · exact absurd rfl (h _ rfl).2.2.2
  · rfl

theorem greatest_eq : greatest = 2 ^ 64 - 1 := rfl

theorem whole_negative {n : Nat} (hne : n ≠ 0) (hn : n ≤ 2 ^ 63) : whole true n = .int (-n) := by
  have hlow : ¬ (n = 0 ∨ Nat.pow 2 63 < n) := by
    rintro (hzero | hlarge)
    · exact hne hzero
    · exact absurd hn (Nat.not_le.mpr hlarge)
  rw [whole, if_neg (by decide), if_neg hlow]

/-- **A whole number as it is written is read as itself.** -/
theorem read_toDigits {n : Nat} (hn : n ≤ greatest) {rest : List Char} (h : Ends rest)
    (isNegative : Bool) :
    read isNegative (Nat.toDigits 10 n ++ rest) = .ok (whole isNegative n, rest) := by
  have hdigit : ∀ c ∈ rest.head?, isDigit c = false := fun c hc => (h c hc).1
  have hany : rest.head?.any isDigit = false := by
    cases hhead : rest.head? with
    | none => rfl
    | some c => exact hdigit c hhead
  have hmem := fun c => Digits.decimal_of_mem_toDigits (n := n) (c := c)
  obtain ⟨c, cs, hcs, hzero⟩ := Digits.toDigits_cons n
  have hgather : gather greatest 0 0 (Nat.toDigits 10 n ++ rest) =
      (Nat.ofDigitChars 10 (Nat.toDigits 10 n) 0, 0 + (Nat.toDigits 10 n).length, rest) :=
    gather_digits hmem (by rwa [Nat.ofDigitChars_ten_toDigits]) hdigit
  rw [Nat.ofDigitChars_ten_toDigits] at hgather
  rw [hcs] at hmem hgather ⊢
  rw [List.cons_append, read]
  by_cases hc : c = '0'
  · obtain ⟨rfl, rfl⟩ := hzero hc
    rw [if_pos hc, List.nil_append, hany]
    exact afterWhole_ends h isNegative 0
  · have hfirst : isDigit c = true := by
      rw [isDigit, digit?_of_decimal (hmem c List.mem_cons_self)]
      rfl
    rw [if_neg hc, hfirst, ← List.cons_append, hgather]
    simp only [hany]
    exact afterWhole_ends h isNegative n

end Number

/-! ## Values -/

theorem tidyItems_eq (items : List Json) : tidyItems items = items.map tidy := by
  induction items with
  | nil => rfl
  | cons v vs ih => rw [tidyItems, ih, List.map_cons]

theorem tidyFields_eq (fields : List (String × Json)) :
    tidyFields fields = fields.map fun f => (f.1, f.2.tidy) := by
  induction fields with
  | nil => rfl
  | cons f fs ih => rw [tidyFields, ih, List.map_cons]

theorem ends_of_mem {c : Char} (h : c ∈ [',', ']', '\x7d']) (rest : List Char) : Ends (c :: rest) := by
  rintro _ ⟨⟩
  simp only [List.mem_cons, List.not_mem_nil, or_false] at h
  rcases h with rfl | rfl | rfl <;> decide

theorem skipBlanks_cons {c : Char} (h : isBlank c = false) (rest : List Char) :
    skipBlanks (c :: rest) = c :: rest := List.dropWhile_cons_of_neg (by simp [h])

/-- A digit is no blank. -/
theorem isBlank_of_decimal {c : Char} (h : 48 ≤ c.toNat ∧ c.toNat ≤ 57) : isBlank c = false := by
  have hne : ∀ b : Char, b.toNat < 48 → c ≠ b := by
    rintro b hb rfl
    omega
  simp [isBlank, hne ' ' (by decide), hne '\t' (by decide), hne '\n' (by decide),
    hne '\r' (by decide)]

variable {depth : Nat} {v : Json}

/-- What a value begins with. -/
theorem Plain.chars_cons (h : Plain depth v) :
    ∃ c cs, v.chars = c :: cs ∧ isBlank c = false ∧ c ≠ ']' := by
  cases h with
  | null => exact ⟨_, _, rfl, rfl, by decide⟩
  | bool b => cases b <;> exact ⟨_, _, rfl, rfl, by decide⟩
  | str s => exact ⟨_, _, rfl, rfl, by decide⟩
  | arr h => exact ⟨_, _, rfl, rfl, by decide⟩
  | obj h => exact ⟨_, _, rfl, rfl, by decide⟩
  | @int _ n =>
    cases n with
    | negSucc n => exact ⟨_, _, rfl, rfl, by decide⟩
    | ofNat n =>
      obtain ⟨c, cs, hcs, -⟩ := Digits.toDigits_cons n
      have hc : 48 ≤ c.toNat ∧ c.toNat ≤ 57 :=
        Digits.decimal_of_mem_toDigits (n := n) (by rw [hcs]; exact List.mem_cons_self)
      refine ⟨c, cs, hcs, isBlank_of_decimal hc, ?_⟩
      rintro rfl
      revert hc
      decide

theorem itemChars_cons (h : Plain depth v) (vs : List Json) :
    ∃ c cs, itemChars (v :: vs) = c :: cs ∧ isBlank c = false ∧ c ≠ ']' := by
  obtain ⟨c, cs, hcs, hc⟩ := h.chars_cons
  cases vs with
  | nil => exact ⟨c, _, by rw [itemChars, hcs, List.cons_append], hc⟩
  | cons w ws => exact ⟨c, _, by rw [itemChars, hcs, List.cons_append], hc⟩

theorem fieldChars_cons (f : String × Json) (fs : List (String × Json)) :
    ∃ cs, fieldChars (f :: fs) = '"' :: cs := by
  cases fs <;> exact ⟨_, rfl⟩

namespace Reader

/-- A value is read as it was written, whatever follows it. -/
def Reads (depth : Nat) (v : Json) : Prop :=
  ∀ steps rest, 2 * v.chars.length ≤ steps → Ends rest →
    value steps depth (v.chars ++ rest) = .ok (v.tidy, rest)

theorem items_reads {items : List Json} (hplain : ∀ v ∈ items, Plain depth v)
    (h : ∀ v ∈ items, Reads depth v) (hne : items ≠ []) (done : List Json) (steps : Nat)
    (rest : List Char) (hsteps : 2 * (itemChars items).length + 1 ≤ steps) :
    Reader.items steps depth done (itemChars items ++ rest) =
      .ok (arr (done.reverse ++ tidyItems items), rest) := by
  induction items generalizing done steps with
  | nil => exact absurd rfl hne
  | cons v vs ih =>
    obtain ⟨hv, hvs⟩ := List.forall_mem_cons.mp h
    have hplain := (List.forall_mem_cons.mp hplain).2
    obtain ⟨steps, rfl⟩ : ∃ s, steps = s + 1 := ⟨steps - 1, by omega⟩
    cases vs with
    | nil =>
      have hlen : (itemChars [v]).length = v.chars.length + 1 := by
        rw [itemChars, List.length_append, List.length_singleton]
      have hread := hv steps (']' :: rest) (by omega) (ends_of_mem (by decide) rest)
      rw [itemChars, List.append_assoc, List.singleton_append, Reader.items, hread]
      simp only [skipBlanks_cons (show isBlank ']' = false from rfl)]
      rw [List.reverse_cons, tidyItems, tidyItems]
    | cons w ws =>
      have hlen : (itemChars (v :: w :: ws)).length =
          v.chars.length + ((itemChars (w :: ws)).length + 1) := by
        rw [itemChars, List.length_append, List.length_cons]
      have hread := hv steps (',' :: (itemChars (w :: ws) ++ rest)) (by omega)
        (ends_of_mem (by decide) _)
      have hnext := ih hplain hvs (List.cons_ne_nil w ws) (v.tidy :: done) steps (by omega)
      obtain ⟨c, cs, hcs, hblank, hopen⟩ := itemChars_cons (hplain w List.mem_cons_self) ws
      rw [itemChars, List.append_assoc, List.cons_append, Reader.items, hread]
      rw [hcs, List.cons_append] at hnext ⊢
      simp only [skipBlanks_cons (show isBlank ',' = false from rfl), skipBlanks_cons hblank]
      split
      · next hnil => cases hnil
      · next hclose =>
        injection hclose with hc
        exact absurd hc hopen
      · rw [hnext, List.reverse_cons, List.append_assoc]
        rfl

/-- Fields are read as they were written, into those before. -/
theorem fields_reads {fields : List (String × Json)} (h : ∀ f ∈ fields, Reads depth f.2)
    (hne : fields ≠ []) (done : List (String × Json)) (steps : Nat) (rest : List Char)
    (hsteps : 2 * (fieldChars fields).length + 1 ≤ steps) :
    Reader.fields steps depth done (fieldChars fields ++ rest) =
      .ok (obj (insertAll done (tidyFields fields)), rest) := by
  induction fields generalizing done steps with
  | nil => exact absurd rfl hne
  | cons f fs ih =>
    obtain ⟨k, v⟩ := f
    obtain ⟨hv, hvs⟩ := List.forall_mem_cons.mp h
    have hv : Reads depth v := hv
    obtain ⟨steps, rfl⟩ : ∃ s, steps = s + 1 := ⟨steps - 1, by omega⟩
    cases fs with
    | nil =>
      have hlen : v.chars.length + 2 ≤ (fieldChars [(k, v)]).length := by
        simp only [fieldChars, List.length_append, List.length_cons]
        omega
      have hread := hv steps ('\x7d' :: rest) (by omega) (ends_of_mem (by decide) rest)
      simp only [fieldChars, quote, List.cons_append, List.append_assoc, List.nil_append,
        Reader.fields, Text.read_quote, hread, skipBlanks_cons (show isBlank ':' = false from rfl),
        skipBlanks_cons (show isBlank '\x7d' = false from rfl)]
      rw [tidyFields, tidyFields]
      rfl
    | cons g gs =>
      have hlen : v.chars.length + 2 + (fieldChars (g :: gs)).length ≤
          (fieldChars ((k, v) :: g :: gs)).length := by
        simp only [fieldChars, List.length_append, List.length_cons]
        omega
      have hread := hv steps (',' :: (fieldChars (g :: gs) ++ rest)) (by omega)
        (ends_of_mem (by decide) _)
      have hnext := ih hvs (List.cons_ne_nil g gs) (insert k v.tidy done) steps (by omega)
      obtain ⟨cs, hcs⟩ := fieldChars_cons g gs
      rw [hcs, List.cons_append] at hread hnext
      simp only [fieldChars, hcs, quote, List.cons_append, List.append_assoc, List.nil_append,
        Reader.fields, Text.read_quote, hread, skipBlanks_cons (show isBlank ':' = false from rfl),
        skipBlanks_cons (show isBlank ',' = false from rfl),
        skipBlanks_cons (show isBlank '"' = false from rfl), hnext]
      rw [tidyFields]
      rfl

end Reader

theorem value_digit {c : Char} (h : 48 ≤ c.toNat ∧ c.toNat ≤ 57) (steps depth : Nat)
    (rest : List Char) :
    Reader.value (steps + 1) depth (c :: rest) = Number.read false (c :: rest) := by
  have hne : ∀ b : Char, b.toNat < 48 ∨ 57 < b.toNat → c ≠ b := by
    rintro b hb rfl
    omega
  have hdigit : Number.isDigit c = true := by
    rw [Number.isDigit, Number.digit?_of_decimal h]
    rfl
  rw [Reader.value, skipBlanks_cons (isBlank_of_decimal h)]
  simp only [if_neg (hne 'n' (by decide)), if_neg (hne 't' (by decide)), if_neg (hne 'f' (by decide)),
    if_neg (hne '-' (by decide)), hdigit, if_true]

/-- After a bracket the items begin. -/
theorem value_bracket {c : Char} (hblank : isBlank c = false) (hopen : c ≠ ']') (steps depth : Nat)
    (rest : List Char) :
    Reader.value (steps + 1) (depth + 1) ('[' :: c :: rest) = Reader.items steps depth [] (c :: rest) := by
  rw [Reader.value, skipBlanks_cons (show isBlank '[' = false from rfl)]
  simp only [skipBlanks_cons hblank]
  iterate 6 rw [if_neg (by decide)]
  rw [if_pos trivial]
  split
  · next hnil => cases hnil
  · next hclose =>
    injection hclose with hc
    exact absurd hc hopen
  · rfl

theorem value_intChars {n : Int} (low : -(2 ^ 63) ≤ n) (high : n < 2 ^ 64) {rest : List Char}
    (hends : Ends rest) (steps depth : Nat) :
    Reader.value (steps + 1) depth (intChars n ++ rest) = .ok (int n, rest) := by
  cases n with
  | ofNat n =>
    have hfits : n ≤ Number.greatest := by
      rw [Number.greatest_eq]
      rw [Int.ofNat_eq_natCast] at high
      omega
    have hread := Number.read_toDigits hfits hends false
    obtain ⟨c, cs, hcs, -⟩ := Digits.toDigits_cons n
    have hc : 48 ≤ c.toNat ∧ c.toNat ≤ 57 :=
      Digits.decimal_of_mem_toDigits (n := n) (by rw [hcs]; exact List.mem_cons_self)
    rw [intChars, hcs, List.cons_append, value_digit hc, ← List.cons_append, ← hcs, hread]
    rfl
  | negSucc n =>
    have hfits : n + 1 ≤ Number.greatest := by
      rw [Number.greatest_eq]
      omega
    have hread := Number.read_toDigits hfits hends true
    rw [Number.whole_negative (Nat.succ_ne_zero n) (by omega)] at hread
    exact hread

theorem value_quote (s : String) (rest : List Char) (steps depth : Nat) :
    Reader.value (steps + 1) depth ((str s).chars ++ rest) = .ok (str s, rest) := by
  rw [chars, quote, List.cons_append, List.append_assoc]
  exact congrArg (Except.map fun r => (Json.str r.1, r.2)) (Text.read_quote s rest)

theorem value_arr {items : List Json} (hplain : ∀ v ∈ items, Plain depth v)
    (h : ∀ v ∈ items, Reader.Reads depth v) {steps : Nat} (hsteps : 2 * (arr items).chars.length ≤ steps + 1)
    (rest : List Char) :
    Reader.value (steps + 1) (depth + 1) ((arr items).chars ++ rest) = .ok ((arr items).tidy, rest) := by
  rw [chars, List.length_cons] at hsteps
  cases items with
  | nil => rfl
  | cons v vs =>
    have hread := Reader.items_reads hplain h (List.cons_ne_nil v vs) [] steps rest (by omega)
    obtain ⟨c, cs, hcs, hblank, hopen⟩ := itemChars_cons (hplain v List.mem_cons_self) vs
    rw [hcs, List.cons_append] at hread
    rw [chars, hcs, List.cons_append, List.cons_append, value_bracket hblank hopen, hread]
    rfl

theorem value_obj {fields : List (String × Json)} (h : ∀ f ∈ fields, Reader.Reads depth f.2) {steps : Nat}
    (hsteps : 2 * (obj fields).chars.length ≤ steps + 1) (rest : List Char) :
    Reader.value (steps + 1) (depth + 1) ((obj fields).chars ++ rest) = .ok ((obj fields).tidy, rest) := by
  rw [chars, List.length_cons] at hsteps
  cases fields with
  | nil => rfl
  | cons f fs =>
    have hread := Reader.fields_reads h (List.cons_ne_nil f fs) [] steps rest (by omega)
    obtain ⟨cs, hcs⟩ := fieldChars_cons f fs
    rw [hcs, List.cons_append] at hread
    rw [chars, hcs, List.cons_append, List.cons_append]
    exact hread

/-- The text of a value has a character at least, so there is a step to read it. -/
theorem Reader.Reads.of_succ (h : Plain depth v)
    (hread : ∀ steps rest, 2 * v.chars.length ≤ steps + 1 → Ends rest →
      Reader.value (steps + 1) depth (v.chars ++ rest) = .ok (v.tidy, rest)) : Reader.Reads depth v := by
  intro steps rest hsteps hends
  obtain ⟨c, cs, hcs, -⟩ := h.chars_cons
  have hlength : 0 < v.chars.length := by simp [hcs]
  obtain ⟨steps, rfl⟩ : ∃ s, steps = s + 1 := ⟨steps - 1, by omega⟩
  exact hread steps rest hsteps hends

/-- **A value is read as it was written**, whatever follows it. -/
theorem Plain.reads (h : Plain depth v) : Reader.Reads depth v := by
  induction h with
  | null => exact .of_succ .null fun _ _ _ _ => rfl
  | bool b => exact .of_succ (.bool b) fun _ _ _ _ => by cases b <;> rfl
  | int low high =>
    exact .of_succ (.int low high) fun steps rest _ hends => value_intChars low high hends steps _
  | str s => exact .of_succ (.str s) fun steps rest _ _ => value_quote s rest steps _
  | arr hitems ih => exact .of_succ (.arr hitems) fun _ rest hsteps _ => value_arr hitems ih hsteps rest
  | obj hfields ih => exact .of_succ (.obj hfields) fun _ rest hsteps _ => value_obj ih hsteps rest

/-- **The text of a value is read as the value.** -/
theorem Plain.parse_print (h : Plain Reader.depthLimit v) : parse v.print = .ok v.tidy := by
  have hread := h.reads (Reader.stepsFor v.chars) [] (by unfold Reader.stepsFor; omega) nofun
  rw [List.append_nil] at hread
  rw [parse, print, String.toList_ofList]
  simp only [hread, ending]
  rfl

/-! ## Values in order -/

/-- The fields of each object stand in ascending order of their keys, each key once. -/
inductive Ordered : Json → Prop
  | null : Ordered null
  | bool (b : Bool) : Ordered (bool b)
  | int (n : Int) : Ordered (int n)
  | float (x : Binary64) : Ordered (float x)
  | str (s : String) : Ordered (str s)
  | arr {items : List Json} (h : ∀ v ∈ items, Ordered v) : Ordered (arr items)
  | obj {fields : List (String × Json)} (hkeys : fields.Pairwise fun f g => f.1 < g.1)
      (h : ∀ f ∈ fields, Ordered f.2) : Ordered (obj fields)

/-- A field goes behind those with lower keys. -/
theorem insert_last {k : String} {done : List (String × Json)} (h : ∀ f ∈ done, f.1 < k) :
    insert k v done = done ++ [(k, v)] := by
  induction done with
  | nil => rfl
  | cons f fs ih =>
    obtain ⟨hf, hfs⟩ := List.forall_mem_cons.mp h
    have hne : k ≠ f.1 := fun heq => String.lt_irrefl _ (heq ▸ hf)
    rw [insert, if_neg (String.lt_asymm hf), if_neg hne, ih hfs, List.cons_append]

theorem insertAll_ordered {done fs : List (String × Json)}
    (h : (done ++ fs).Pairwise fun f g => f.1 < g.1) : insertAll done fs = done ++ fs := by
  induction fs generalizing done with
  | nil => exact (List.append_nil done).symm
  | cons f fs ih =>
    have hlast : ∀ g ∈ done, g.1 < f.1 := fun g hg =>
      (List.pairwise_append.mp h).2.2 g hg f List.mem_cons_self
    have hnext : insertAll done (f :: fs) = insertAll (insert f.1 f.2 done) fs := rfl
    rw [← List.singleton_append, ← List.append_assoc] at h
    rw [hnext, insert_last hlast, ih h, List.append_assoc, List.singleton_append]

/-- **A value in order is tidy.** -/
theorem Ordered.tidy_eq (h : Ordered v) : v.tidy = v := by
  induction h with
  | arr hitems ih =>
    rw [tidy, tidyItems_eq, List.map_congr_left ih, List.map_id']
  | obj hkeys hfields ih =>
    have hsame : ∀ f ∈ _, (fun f : String × Json => (f.1, f.2.tidy)) f = f :=
      fun f hf => Prod.ext rfl (ih f hf)
    rw [tidy, tidyFields_eq, List.map_congr_left hsame, List.map_id']
    have hdone : insertAll [] _ = [] ++ _ := insertAll_ordered hkeys
    exact congrArg Json.obj hdone
  | _ => rfl

end BoothLink.Json
