import BoothLink.Proofs.Decimal.Written
import BoothLink.Proofs.Toml.Text
import BoothLink.Toml.Printer
import BoothLink.Toml.Reader

/-!
# Lines read as they were written

Whole numbers, strings and lists of strings are read as they were written, up to the end of the line, and so
are entries, headers and texts of several lines.

* `Number.read?_toDigits`: a whole number.
* `Reader.Spells`, `Reader.Spells.toDigits`, `Reader.Spells.writeText`, `Reader.Spells.writeTexts`: values at
  the end of a line.
* `Reader.line?_writeEntry`, `Reader.line?_header`: an entry and a header.
* `Reader.Reads`, `Reader.Reads.append`: lines that are read in front of others.
* **`Reader.Reads.lines?`**: a text of such lines.
-/

namespace BoothLink.Toml

variable {rest : List Char}

/-! ## Whole numbers -/

/-- What can stand behind a digit of a number at the end of a line. -/
def GoesOn (c : Char) : Prop := c = '\n' ∨ 48 ≤ c.toNat ∧ c.toNat ≤ 57

theorem GoesOn.ne {c d : Char} (h : GoesOn c) (hline : d ≠ '\n') (hd : d.toNat < 48 ∨ 57 < d.toNat) :
    c ≠ d := by
  rintro rfl
  obtain hc | hc := h
  · exact hline hc
  · omega

/-- Behind a part of the digits come others, or the end of the line. -/
theorem number?_goesOn {ds : List Char} (hds : ∀ c ∈ ds, 48 ≤ c.toNat ∧ c.toNat ≤ 57)
    {count low high n : Nat} {cs : List Char}
    (h : Moment.number? count low high (ds ++ '\n' :: rest) = some (n, cs)) :
    ∃ c more, cs = c :: more ∧ GoesOn c := by
  simp only [Moment.number?] at h
  split_ifs at h with hdigits
  simp only [Option.some.injEq, Prod.mk.injEq] at h
  obtain ⟨-, rfl⟩ := h
  simp only [Bool.and_eq_true, decide_eq_true_eq, List.all_eq_true] at hdigits
  -- The line end is no digit, so the count ends before it.
  have hcount : count ≤ ds.length := by
    by_contra hlong
    have hmem : '\n' ∈ (ds ++ '\n' :: rest).take count := by
      rw [List.take_append, List.mem_append]
      refine .inr ?_
      obtain ⟨k, hk⟩ : ∃ k, count - ds.length = k + 1 := ⟨count - ds.length - 1, by omega⟩
      rw [hk, List.take_succ_cons]
      exact List.mem_cons_self
    have := hdigits.1.1.2 _ hmem
    revert this
    decide
  rw [List.drop_append_of_le_length hcount]
  cases hdrop : ds.drop count with
  | nil => exact ⟨_, _, rfl, .inl rfl⟩
  | cons c more =>
    refine ⟨c, _, rfl, .inr (hds c ?_)⟩
    exact List.mem_of_mem_drop (hdrop ▸ List.mem_cons_self)

theorem after?_goesOn {mark c : Char} (h : GoesOn c) (hline : mark ≠ '\n')
    (hmark : mark.toNat < 48 ∨ 57 < mark.toNat) (count low high : Nat) (cs : List Char) :
    Moment.after? mark count low high (c :: cs) = none := if_neg (h.ne hline hmark)

/-- A number is no date and no time. -/
theorem moment_digits {ds : List Char} (hds : ∀ c ∈ ds, 48 ≤ c.toNat ∧ c.toNat ≤ 57) :
    Moment.read? (ds ++ '\n' :: rest) = none := by
  have hdate : Moment.readDate? (ds ++ '\n' :: rest) = none := by
    rw [Moment.readDate?]
    cases hyear : Moment.number? 4 0 9999 (ds ++ '\n' :: rest) with
    | none => rfl
    | some found =>
      obtain ⟨c, more, hcs, hc⟩ := number?_goesOn hds hyear
      simp only [Option.bind_eq_bind, Option.bind_some, hcs,
        after?_goesOn hc (show '-' ≠ '\n' by decide) (by decide), Option.bind_none]
  have htime : Moment.readTime? (ds ++ '\n' :: rest) = none := by
    rw [Moment.readTime?]
    cases hhour : Moment.number? 2 0 23 (ds ++ '\n' :: rest) with
    | none => rfl
    | some found =>
      obtain ⟨c, more, hcs, hc⟩ := number?_goesOn hds hhour
      simp only [Option.bind_eq_bind, Option.bind_some, hcs,
        after?_goesOn hc (show ':' ≠ '\n' by decide) (by decide), Option.bind_none]
  rw [Moment.read?, hdate, htime]
  rfl

namespace Number

theorem digitsOnto_digits {ds : List Char} (hds : ∀ c ∈ ds, 48 ≤ c.toNat ∧ c.toNat ≤ 57)
    (done : List Char) :
    digitsOnto 10 done (ds ++ '\n' :: rest) = some (done.reverse ++ ds, '\n' :: rest) := by
  induction ds generalizing done with
  | nil =>
    rw [List.append_nil]
    rfl
  | cons c ds ih =>
    obtain ⟨hc, hds⟩ := List.forall_mem_cons.mp hds
    rw [List.cons_append, digitsOnto, if_pos (Digits.isDigit_of_decimal hc), ih hds]
    simp

/-- The digits of a number, up to the end of the line. -/
theorem whole?_toDigits (n : Nat) :
    whole? (Nat.toDigits 10 n ++ '\n' :: rest) = some (Nat.toDigits 10 n, '\n' :: rest) := by
  have hds := fun c => Digits.decimal_of_mem_toDigits (n := n) (c := c)
  obtain ⟨c, cs, hcs, hzero⟩ := Digits.toDigits_cons n
  rw [hcs] at hds ⊢
  by_cases hc : c = '0'
  · obtain ⟨-, rfl⟩ := hzero hc
    rw [hc]
    rfl
  · have hfirst := Digits.isDigit_of_decimal (hds c List.mem_cons_self)
    rw [whole?.eq_2 _ (by rintro _ ⟨⟩; exact hc rfl), digits?, if_pos (by exact hfirst)]
    exact digitsOnto_digits hds []

/-- A digit is no sign, and no word begins with it. -/
theorem signed?_digit {c : Char} (hc : 48 ≤ c.toNat ∧ c.toNat ≤ 57) (cs : List Char) :
    signed? (c :: cs) = decimal? false (c :: cs) := by
  have hc : GoesOn c := .inr hc
  have hsigned : signed (c :: cs) = (false, c :: cs) :=
    signed.eq_3 _ (by rintro _ ⟨⟩; exact hc.ne (by decide) (by decide) rfl)
      (by rintro _ ⟨⟩; exact hc.ne (by decide) (by decide) rfl)
  rw [signed?, hsigned]
  simp only
  split
  · next heq =>
    cases heq
    exact absurd rfl (hc.ne (show 'i' ≠ '\n' by decide) (by decide))
  · next heq =>
    cases heq
    exact absurd rfl (hc.ne (show 'n' ≠ '\n' by decide) (by decide))
  · rfl

/-- Digits up to the end of a line are neither followed by a fraction nor by an exponent. -/
theorem decimal?_of_whole? {cs ds : List Char} {v : Toml} (hwhole : whole? cs = some (ds, '\n' :: rest))
    (hint : int? (Digits.value 10 ds : Nat) = some v) : decimal? false cs = some (v, '\n' :: rest) := by
  unfold decimal?
  rw [hwhole, Option.bind_eq_bind, Option.bind_some]
  split
  next heq =>
    obtain ⟨rfl, rfl⟩ := Prod.mk.inj heq
    split
    next hpoint => exact absurd (List.cons.inj hpoint).1 (by decide)
    next =>
      rw [if_neg (by simp [isExponent]), if_neg (by decide), hint]
      rfl

theorem decimal?_toDigits {n : Nat} (hn : n < intLimit) :
    decimal? false (Nat.toDigits 10 n ++ '\n' :: rest) = some (.int n, '\n' :: rest) := by
  refine decimal?_of_whole? (whole?_toDigits n) ?_
  rw [Digits.value_toDigits]
  refine if_pos ?_
  simp only [fits, Bool.and_eq_true, decide_eq_true_eq]
  omega

/-- **A whole number is read as it was written.** -/
theorem read?_toDigits {n : Nat} (hn : n < intLimit) :
    read? (Nat.toDigits 10 n ++ '\n' :: rest) = some (.int n, '\n' :: rest) := by
  have hds := fun c => Digits.decimal_of_mem_toDigits (n := n) (c := c)
  have hdecimal := @decimal?_toDigits rest n hn
  obtain ⟨c, cs, hcs, hzero⟩ := Digits.toDigits_cons n
  rw [hcs, List.cons_append] at hdecimal ⊢
  have hsigned := signed?_digit (hds c (hcs ▸ List.mem_cons_self)) (cs ++ '\n' :: rest)
  rw [← hdecimal, ← hsigned]
  by_cases hc : c = '0'
  · obtain ⟨-, rfl⟩ := hzero hc
    subst hc
    rfl
  · exact read?.eq_2 _ fun _ _ heq => hc (List.cons.inj heq).1

end Number

namespace Reader

theorem scalar?_toDigits {n : Nat} (hn : n < intLimit) :
    scalar? (Nat.toDigits 10 n ++ '\n' :: rest) = some (.int n, '\n' :: rest) := by
  rw [scalar?, moment_digits fun c => Digits.decimal_of_mem_toDigits]
  exact Number.read?_toDigits hn

/-! ## Values -/

/-- A text that is read as a value at the end of a line, in no more steps than it has characters. -/
structure Spells (text : List Char) (v : Toml) : Prop where
  head : ∀ c ∈ text.head?, Text.isSpace c = false
  value : ∀ steps depth rest, text.length ≤ steps →
    value (steps + 1) (depth + 1) (text ++ '\n' :: rest) = some (v, '\n' :: rest)

/-- **A whole number is a value.** -/
theorem Spells.toDigits {n : Nat} (hn : n < intLimit) : Spells (Nat.toDigits 10 n) (.int n) := by
  obtain ⟨c, cs, hcs, -⟩ := Digits.toDigits_cons n
  have hc : GoesOn c := .inr (Digits.decimal_of_mem_toDigits (n := n) (hcs ▸ List.mem_cons_self))
  refine ⟨?_, fun steps depth rest _ => ?_⟩
  · rw [hcs]
    rintro _ ⟨⟩
    simp [Text.isSpace, hc.ne (d := ' ') (by decide) (by decide), hc.ne (d := '\t') (by decide) (by decide)]
  · have hscalar := @scalar?_toDigits rest n hn
    rw [hcs, List.cons_append] at hscalar ⊢
    rw [Reader.value.eq_def]
    simp [hscalar, hc.ne (d := '[') (by decide) (by decide), Text.quote, Text.apostrophe,
      hc.ne (d := '"') (by decide) (by decide), hc.ne (d := '\x27') (by decide) (by decide),
      hc.ne (d := '\x7b') (by decide) (by decide), hc.ne (d := 't') (by decide) (by decide),
      hc.ne (d := 'f') (by decide) (by decide)]

theorem value_writeText (hrest : Text.Follows rest) (steps depth : Nat) (s : String) :
    value (steps + 1) depth (writeText s.toList ++ rest) = some (.text s, rest) := by
  have hread := Text.read?_writeText hrest s.toList
  obtain ⟨c, cs, hcs, hc⟩ := writeText_cons s.toList
  rw [hcs, List.cons_append] at hread ⊢
  have hsign : (c = Text.quote || c = Text.apostrophe) = true := by simpa using hc
  rw [Reader.value.eq_def]
  simp only [hsign, if_true, hread, Option.map_some, String.ofList_toList]

/-- **A string is a value.** -/
theorem Spells.writeText (s : String) : Spells (writeText s.toList) (.text s) := by
  refine ⟨?_, fun steps depth rest _ => value_writeText
    (Text.follows_cons (by decide) (by decide) rest) steps _ s⟩
  obtain ⟨c, cs, hcs, hc⟩ := writeText_cons s.toList
  rw [hcs]
  rintro _ ⟨⟩
  rcases hc with rfl | rfl <;> decide

/-! ## Lists of strings -/

/-- Blanks and line ends in front of an item are passed over. -/
theorem items_congr {cs cs' : List Char} (h : skipLayout false cs = skipLayout false cs')
    (steps depth : Nat) (done : List Toml) : items steps depth done cs = items steps depth done cs' := by
  cases steps with
  | zero => rfl
  | succ steps => rw [items, items, h]

theorem value_items (steps depth : Nat) (cs : List Char) :
    value (steps + 1) (depth + 1) ('[' :: cs) = items steps depth [] cs := rfl

theorem items_end (steps depth : Nat) (done : List Toml) (rest : List Char) :
    items (steps + 1) depth done (']' :: rest) = some (.list done.reverse, rest) := rfl

/-- A string in front of the next item or the end of a list. -/
theorem items_writeText {c : Char} (hc : c = ',' ∨ c = ']') (steps depth : Nat) (done : List Toml)
    (s : String) (rest : List Char) :
    items (steps + 2) depth done (writeText s.toList ++ c :: rest) =
      if c = ',' then items (steps + 1) depth (.text s :: done) rest
      else some (.list (.text s :: done).reverse, rest) := by
  have hfollows : Text.Follows (c :: rest) := by
    rcases hc with rfl | rfl <;> exact Text.follows_cons (by decide) (by decide) rest
  have hvalue := value_writeText hfollows steps depth s
  obtain ⟨d, cs, hcs, hd⟩ := writeText_cons s.toList
  rw [hcs, List.cons_append] at hvalue ⊢
  have hlayout : skipLayout false (d :: (cs ++ c :: rest)) = d :: (cs ++ c :: rest) := by
    rcases hd with rfl | rfl <;> rfl
  rw [items, hlayout]
  split
  next heq =>
    rcases hd with rfl | rfl <;> exact absurd (List.cons.inj heq).1 (by decide)
  next =>
    rw [hvalue]
    rcases hc with rfl | rfl <;> rfl

theorem items_writeItem (steps depth : Nat) (done : List Toml) (s : String) (rest : List Char) :
    items (steps + 2) depth done (writeItem s ++ rest) = items (steps + 1) depth (.text s :: done) rest := by
  calc items (steps + 2) depth done (writeItem s ++ rest)
    _ = items (steps + 2) depth done (writeText s.toList ++ ',' :: '\n' :: rest) := by
      rw [writeItem, List.append_assoc, List.append_assoc]
      exact items_congr rfl _ _ _
    _ = items (steps + 1) depth (.text s :: done) ('\n' :: rest) :=
      (items_writeText (.inl rfl) steps depth done s _).trans (if_pos rfl)
    _ = items (steps + 1) depth (.text s :: done) rest := items_congr rfl _ _ _

theorem items_flatMap (l : List String) (steps depth : Nat) (done : List Toml) (rest : List Char) :
    items (steps + l.length + 1) depth done (l.flatMap writeItem ++ ']' :: rest) =
      some (.list (done.reverse ++ l.map .text), rest) := by
  induction l generalizing done with
  | nil =>
    rw [List.map_nil, List.append_nil]
    exact items_end _ depth done rest
  | cons s l ih =>
    rw [List.flatMap_cons, List.append_assoc, List.length_cons, ← Nat.add_assoc, items_writeItem, ih]
    simp

theorem writeTexts_several (s t : String) (l : List String) : Toml.writeTexts (s :: t :: l) =
    '[' :: '\n' :: ((s :: t :: l).flatMap writeItem ++ [']']) := rfl

theorem length_writeTexts (l : List String) : l.length + 2 ≤ (writeTexts l).length := by
  match l with
  | [] => exact Nat.le_refl 2
  | [s] =>
    obtain ⟨c, cs, hcs, -⟩ := writeText_cons s.toList
    simp only [writeTexts, hcs, List.length_cons, List.length_append]
    omega
  | s :: t :: l =>
    have hitems : ∀ l : List String, l.length ≤ (l.flatMap writeItem).length := by
      intro l
      induction l with
      | nil => exact Nat.le_refl 0
      | cons s l ih =>
        simp only [List.flatMap_cons, writeItem, List.length_append, List.length_cons]
        omega
    have := hitems (s :: t :: l)
    simp only [writeTexts_several, List.length_cons, List.length_append] at this ⊢
    omega

/-- **A list of strings is a value**, whether it is written on one line or on several. -/
theorem Spells.writeTexts (l : List String) : Spells (writeTexts l) (.list (l.map .text)) := by
  refine ⟨?_, fun steps depth rest hsteps => ?_⟩
  · match l with
    | [] | [_] | _ :: _ :: _ => rintro _ ⟨⟩; decide
  · have hlength := length_writeTexts l
    obtain ⟨more, rfl⟩ : ∃ more, steps = more + l.length + 1 := ⟨steps - l.length - 1, by omega⟩
    match l with
    | [] => exact items_end more depth [] ('\n' :: rest)
    | [s] =>
      rw [Toml.writeTexts, List.cons_append, List.append_assoc, value_items]
      exact (items_writeText (.inr rfl) more depth [] s ('\n' :: rest)).trans (if_neg (by decide))
    | s :: t :: l =>
      rw [writeTexts_several, List.cons_append, List.cons_append, List.append_assoc, value_items]
      refine (items_congr ?_ _ _ _).trans (items_flatMap (s :: t :: l) more depth [] ('\n' :: rest))
      rfl

/-! ## Keys -/

/-- A key that stands without quotes. -/
structure Bare (key : String) : Prop where
  ne_nil : key.toList ≠ []
  all : key.toList.all isKeyChar = true

variable {key : String}

theorem ne_of_isKeyChar {c d : Char} (hc : isKeyChar c = true) (hd : isKeyChar d = false) : c ≠ d := by
  rintro rfl
  simp [hc] at hd

theorem skipSpaces_cons {c : Char} (hc : Text.isSpace c = false) (cs : List Char) :
    skipSpaces (c :: cs) = c :: cs := List.dropWhile_cons_of_neg (by simpa using hc)

theorem Bare.isKeyChar (h : Bare key) : ∀ c ∈ key.toList, Reader.isKeyChar c = true :=
  List.all_eq_true.mp h.all

/-- A key begins with a character that may stand in a key. -/
theorem Bare.cons (h : Bare key) : ∃ c cs, key.toList = c :: cs ∧ Reader.isKeyChar c = true := by
  cases hkey : key.toList with
  | nil => exact absurd hkey h.ne_nil
  | cons c cs => exact ⟨c, cs, rfl, h.isKeyChar c (hkey ▸ List.mem_cons_self)⟩

theorem Bare.keyPart? (h : Bare key) {d : Char} (hd : Reader.isKeyChar d = false) :
    keyPart? (key.toList ++ d :: rest) = some (key, d :: rest) := by
  have hname : (key.toList ++ d :: rest).takeWhile Reader.isKeyChar = key.toList := by
    rw [List.takeWhile_append_of_pos h.isKeyChar, List.takeWhile_cons_of_neg (by simpa using hd),
      List.append_nil]
  obtain ⟨c, cs, hcs, hc⟩ := h.cons
  rw [hcs, List.cons_append, Reader.keyPart?, if_pos hc, ← List.cons_append, ← hcs]
  simp only [hname, List.drop_left, String.ofList_toList]

theorem Bare.isSpace (h : Bare key) {c : Char} {cs : List Char} (hcs : key.toList = c :: cs) :
    Text.isSpace c = false := by
  have hc := h.isKeyChar c (hcs ▸ List.mem_cons_self)
  simp [Text.isSpace, ne_of_isKeyChar hc (d := ' ') (by decide), ne_of_isKeyChar hc (d := '\t') (by decide)]

/-- A key that no dot follows has one part. -/
theorem Bare.key? (h : Bare key) {d e : Char} {more : List Char} (hd : Reader.isKeyChar d = false)
    (hskip : skipSpaces (d :: rest) = e :: more) (he : e ≠ '.') :
    key? partLimit (key.toList ++ d :: rest) = some (⟨[], key⟩, e :: more) := by
  have hpart : Reader.keyPart? (key.toList ++ d :: rest) = some (key, d :: rest) := h.keyPart? hd
  obtain ⟨c, cs, hcs, hc⟩ := h.cons
  rw [hcs, List.cons_append] at hpart ⊢
  rw [partLimit, Reader.key?, skipSpaces_cons (h.isSpace hcs), hpart, Option.bind_eq_bind, Option.bind_some]
  simp only [hskip]
  split
  next heq => exact absurd (List.cons.inj heq).1 he
  next => rfl

/-! ## Entries and headers -/

theorem endLine_newline (rest : List Char) : endLine ('\n' :: rest) = some rest := rfl

/-- **An entry is read as it was written.** -/
theorem line?_writeEntry (hkey : Bare key) {text : List Char} {v : Toml} (htext : Spells text v)
    {steps : Nat} (hsteps : text.length ≤ steps) :
    line? (steps + 1) (writeEntry key text ++ rest) = some (some (.entry ⟨[], key⟩ v), rest) := by
  have hvalue : value (steps + 1) depthLimit (text ++ '\n' :: rest) = some (v, '\n' :: rest) :=
    htext.value steps 78 rest hsteps
  have hspaces : skipSpaces (' ' :: (text ++ '\n' :: rest)) = text ++ '\n' :: rest := by
    refine List.dropWhile_cons_of_pos (by decide) |>.trans ?_
    cases text with
    | nil => rfl
    | cons c cs => exact skipSpaces_cons (htext.head c rfl) _
  have hread : key? partLimit (key.toList ++ ' ' :: '=' :: ' ' :: (text ++ '\n' :: rest)) =
      some (⟨[], key⟩, '=' :: ' ' :: (text ++ '\n' :: rest)) := hkey.key? (by decide) rfl (by decide)
  obtain ⟨c, cs, hcs, hc⟩ := hkey.cons
  have hspace := hkey.isSpace hcs
  have hentry : writeEntry key text ++ rest =
      c :: (cs ++ ' ' :: '=' :: ' ' :: (text ++ '\n' :: rest)) := by
    simp [writeEntry, hcs]
  rw [hcs, List.cons_append] at hread
  rw [hentry, line?, skipSpaces_cons hspace]
  split
  next heq => cases heq
  next heq => exact absurd (List.cons.inj heq).1 (ne_of_isKeyChar hc (by decide))
  next heq => exact absurd (List.cons.inj heq).1 (ne_of_isKeyChar hc (by decide))
  next heq =>
    obtain ⟨rfl, rfl⟩ := List.cons.inj heq
    have hline : ¬ (c = '#' || c = '\n' || c = '\r') = true := by
      simp [ne_of_isKeyChar hc (d := '#') (by decide), ne_of_isKeyChar hc (d := '\n') (by decide),
        ne_of_isKeyChar hc (d := '\r') (by decide)]
    rw [if_neg hline, hread]
    simp only [Option.bind_eq_bind, Option.bind_some, sign, if_true, hspaces, hvalue,
      endLine_newline]
    rfl

/-- A header is read as it was written. -/
theorem line?_header (hname : Bare key) (steps : Nat) :
    line? steps ('[' :: (key.toList ++ [']', '\n']) ++ rest) = some (some (.header ⟨[], key⟩), rest) := by
  have hread : key? partLimit (key.toList ++ ']' :: '\n' :: rest) =
      some (⟨[], key⟩, ']' :: '\n' :: rest) := hname.key? (by decide) rfl (by decide)
  obtain ⟨c, cs, hcs, hc⟩ := hname.cons
  have htext : '[' :: (key.toList ++ [']', '\n']) ++ rest = '[' :: c :: (cs ++ ']' :: '\n' :: rest) := by
    simp [hcs]
  rw [hcs, List.cons_append] at hread
  rw [htext, line?, skipSpaces_cons (by decide)]
  split
  next heq => cases heq
  next heq =>
    exact absurd (List.cons.inj (List.cons.inj heq).2).1 (ne_of_isKeyChar hc (by decide))
  next heq =>
    obtain ⟨-, rfl⟩ := List.cons.inj heq
    rw [hread]
    simp only [Option.bind_eq_bind, Option.bind_some, sign, if_true, endLine_newline]
    rfl
  next hone heq =>
    obtain ⟨rfl, rfl⟩ := List.cons.inj heq
    exact (hone rfl).elim

/-! ## Several lines -/

/-- A text that is read as these lines, whatever follows. -/
def Reads (text : List Char) (lines : List Line) : Prop :=
  ∀ steps rest, stepsFor (text ++ rest) ≤ steps →
    ∃ left, stepsFor rest ≤ left ∧ lines? steps (text ++ rest) = (lines? left rest).map (lines ++ ·)

theorem Reads.nil : Reads [] [] := by
  intro steps rest hsteps
  refine ⟨steps, hsteps, ?_⟩
  cases hread : lines? steps rest with
  | none => simp [hread]
  | some lines => simp [hread]

/-- **Lines are read one text after the other.** -/
theorem Reads.append {text text' : List Char} {lines lines' : List Line} (h : Reads text lines)
    (h' : Reads text' lines') : Reads (text ++ text') (lines ++ lines') := by
  intro steps rest hsteps
  rw [List.append_assoc] at hsteps ⊢
  obtain ⟨mid, hmid, hread⟩ := h steps (text' ++ rest) hsteps
  obtain ⟨left, hleft, hread'⟩ := h' mid rest hmid
  refine ⟨left, hleft, ?_⟩
  rw [hread, hread', Option.map_map]
  congr 1
  funext more
  exact (List.append_assoc lines lines' more).symm

/-- A text that is read as one line. -/
theorem Reads.of_line? {text : List Char} (hne : text ≠ []) (line : Option Line)
    (h : ∀ steps rest, text.length ≤ steps → line? (steps + 1) (text ++ rest) = some (line, rest)) :
    Reads text line.toList := by
  intro steps rest hsteps
  have hlength := List.length_pos_iff.mpr hne
  rw [stepsFor, List.length_append] at hsteps
  obtain ⟨more, rfl⟩ : ∃ more, steps = more + 2 := ⟨steps - 2, by omega⟩
  refine ⟨more + 1, by rw [stepsFor]; omega, ?_⟩
  obtain ⟨c, cs, hcs⟩ := List.exists_cons_of_ne_nil hne
  have hread := h more rest (by omega)
  rw [hcs, List.cons_append] at hread ⊢
  rw [Reader.lines?.eq_def]
  simp only [hread]

theorem Reads.writeEntry (hkey : Bare key) {text : List Char} {v : Toml} (htext : Spells text v) :
    Reads (writeEntry key text) [.entry ⟨[], key⟩ v] := by
  refine Reads.of_line? (by simp [Toml.writeEntry]) (some _) fun steps rest hsteps => ?_
  refine line?_writeEntry hkey htext (Nat.le_trans ?_ hsteps)
  simp only [Toml.writeEntry, List.length_append]
  omega

/-- A blank line says nothing. -/
theorem Reads.blank : Reads ['\n'] [] := Reads.of_line? (by decide) none fun _ _ _ => rfl

theorem Reads.writeHeader (hname : Bare key) : Reads (writeHeader key) [.header ⟨[], key⟩] := by
  have hheader : Reads ('[' :: (key.toList ++ [']', '\n'])) [.header ⟨[], key⟩] :=
    Reads.of_line? (by simp) (some _) fun steps rest _ => line?_header hname (steps + 1)
  exact Reads.blank.append hheader

/-- **A text of lines is read to its end.** -/
theorem Reads.lines? {text : List Char} {lines : List Line} (h : Reads text lines) :
    lines? (stepsFor text) text = some lines := by
  obtain ⟨left, -, hread⟩ := h (stepsFor text) [] (by rw [List.append_nil])
  have hend : Reader.lines? left [] = some [] := by cases left <;> rfl
  rw [List.append_nil, hend] at hread
  rw [hread, Option.map_some, List.append_nil]

end Reader

end BoothLink.Toml
