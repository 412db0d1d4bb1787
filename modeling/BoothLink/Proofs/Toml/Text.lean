import Mathlib.Data.List.Infix
import BoothLink.Toml.Style

/-!
# Strings read as they were written

A string is written in one of six forms, and whatever form that is, reading gives the string back and the
text behind it. Between quotes, escapes are undone; between apostrophes there is nothing to undo, as the
form is taken only for strings that allow it. Signs at the end of a string that stands between three of
them are told apart from these by how many there are.

* `Text.quotedOnto_escapeControl`: an escape.
* `Text.quotedOnto_quotedText`: a string between quotes.
* `Text.Literal`, `Text.Literal.literalOnto`: a string between apostrophes.
* `Style.literal_of`: what is written between apostrophes.
* `Style.readOn?_body`: what is written between the signs.
* **`Text.read?_writeText`**: a string of any form.
-/

namespace BoothLink.Toml

open BoothLink.Toml.Text

variable {c : Char} {s rest done : List Char} {several : Bool}

/-! ## Characters -/

theorem isPlain_iff : isPlain c = true ↔ c = '\t' ∨ 32 ≤ c.toNat ∧ c.toNat ≠ 127 := by
  simp [isPlain]

/-- A character that needs no escape may stand on a line, or is the end of one. -/
theorem isPlain_of_not_isControl (h : isControl c = false) (hline : c ≠ '\n') : isPlain c = true := by
  simpa [isControl, hline] using h

/-- What is written as an escape has a small number. -/
theorem toNat_lt_of_escaped (h : isControl c = true ∨ c = '\t' ∨ c = '\n') : c.toNat < 128 := by
  rcases h with h | rfl | rfl
  · have hplain : ¬ isPlain c = true := by simp_all [isControl]
    rw [isPlain_iff] at hplain
    omega
  · decide
  · decide

namespace Text

/-! ## Escapes -/

/-- The two hexadecimal digits of an escape. -/
theorem hexValue?_hexDigit {n : Nat} (h : n < 128) :
    Octets.hexValue? (hexDigit (n / 16)) = some (n / 16) ∧
      Octets.hexValue? (hexDigit (n % 16)) = some (n % 16) := by
  revert n
  decide

theorem scalar?_toNat (c : Char) : scalar? c.toNat = some c := by
  rw [scalar?, if_pos (show c.toNat.isValidChar from c.valid), Char.ofNat_toNat]

/-- **An escape is read as the character that it was written for.** -/
theorem quotedOnto_escapeControl (h : isControl c = true ∨ c = '\t' ∨ c = '\n') :
    quotedOnto several (.plain false) done (escapeControl c ++ rest) =
      quotedOnto several (.plain false) (c :: done) rest := by
  have hsmall := toNat_lt_of_escaped h
  unfold escapeControl
  split_ifs with hbell htab hline hfeed hreturn
  · obtain rfl : c = '\x08' := Char.toNat_inj.mp hbell
    rfl
  · subst htab
    rfl
  · subst hline
    rfl
  · obtain rfl : c = '\x0c' := Char.toNat_inj.mp hfeed
    rfl
  · subst hreturn
    rfl
  · obtain ⟨hhigh, hlow⟩ := hexValue?_hexDigit hsmall
    have hcode : (0 * 16 + c.toNat / 16) * 16 + c.toNat % 16 = c.toNat := by omega
    show quotedOnto several (.code 2 0) done
      (hexDigit (c.toNat / 16) :: hexDigit (c.toNat % 16) :: rest) = _
    rw [quotedOnto, hhigh]
    simp only [if_neg (show ¬ 2 ≤ 1 by decide)]
    rw [quotedOnto, hlow]
    simp only [if_pos (show 2 - 1 ≤ 1 by decide), hcode, scalar?_toNat]

/-! ## Between quotes -/

/-- What stands between the text of a string and what follows it. -/
def ending (sign : Char) (several : Bool) : List Char := List.replicate (if several then 3 else 1) sign

theorem twoMore?_of_head {sign : Char} {cs : List Char} (h : cs.head? ≠ some sign) :
    twoMore? sign cs = none := by
  cases cs with
  | nil => rfl
  | cons a cs =>
    have ha : a ≠ sign := by simpa using h
    cases cs <;> simp [twoMore?, ha]

theorem twoMore?_of_second {sign : Char} {cs : List Char} (h : cs.head? ≠ some sign) :
    twoMore? sign (sign :: cs) = none := by
  cases cs with
  | nil => rfl
  | cons a cs =>
    have ha : a ≠ sign := by simpa using h
    simp [twoMore?, ha]

/-- Two more signs belong to the string, and one more does. -/
theorem closing_of_head {sign : Char} (h : rest.head? ≠ some sign) :
    closing sign done rest = (done.reverse, rest) ∧
      closing sign done (sign :: rest) = ((sign :: done).reverse, rest) ∧
        closing sign done (sign :: sign :: rest) = ((sign :: sign :: done).reverse, rest) := by
  match rest with
  | [] => simp [closing]
  | [a] =>
    have ha : a ≠ sign := by simpa using h
    simp [closing, ha]
  | a :: b :: cs =>
    have ha : a ≠ sign := by simpa using h
    simp [closing, ha]

/-- A character other than a quote as it is written between quotes. -/
def inner (several : Bool) (c : Char) : List Char :=
  if c = '\\' then ['\\', '\\']
  else if (isControl c || c = '\t' || c = '\n') && !(c = '\n' && several) then escapeControl c
  else [c]

/-- How many quotes in a row may be written as they are. -/
def spare (several : Bool) : Nat := if several then 2 else 0

theorem quotedText_quote (several : Bool) (cs : List Char) :
    quotedText several 0 (quote :: cs) = '\\' :: quote :: quotedText several (spare several) cs ∧
      ∀ allowed, quotedText several (allowed + 1) (quote :: cs) =
        quote :: quotedText several allowed cs := ⟨rfl, fun _ => rfl⟩

theorem quotedText_cons (hc : c ≠ quote) (allowed : Nat) (cs : List Char) :
    quotedText several allowed (c :: cs) = inner several c ++ quotedText several (spare several) cs := by
  rw [quotedText.eq_def, inner]
  by_cases hline : c = '\n'
  · subst hline
    cases several <;> rfl
  · simp only [if_neg hc, hline]
    split_ifs <;> simp_all [spare]

/-- **A character is read as it was written.** -/
theorem quotedOnto_inner (hc : c ≠ quote) :
    quotedOnto several (.plain false) done (inner several c ++ rest) =
      quotedOnto several (.plain false) (c :: done) rest := by
  unfold inner
  split_ifs with hback hescaped
  · subst hback
    rfl
  · refine quotedOnto_escapeControl ?_
    simp only [Bool.and_eq_true, Bool.or_eq_true, decide_eq_true_eq] at hescaped
    exact or_assoc.mp hescaped.1
  · have hplain : (isPlain c || several && c = '\n') = true := by
      by_cases hline : c = '\n'
      · simp_all
      · have hcontrol : isControl c = false := by simp_all
        rw [isPlain_of_not_isControl hcontrol hline, Bool.true_or]
    rw [List.singleton_append, quotedOnto.eq_def]
    simp only [Bool.false_and, if_neg hc, if_neg hback, hplain, if_true, Bool.false_eq_true, if_false]

/-- What is written begins on a line unless the string begins with a line end, and with a quote only if the
string does and the quote need not be escaped. -/
theorem quotedText_head (several : Bool) (allowed : Nat) (c : Char) (cs : List Char) :
    ∃ d ds, quotedText several allowed (c :: cs) = d :: ds ∧ (c ≠ '\n' → isPlain d = true) ∧
      (allowed = 0 ∨ c ≠ quote → d ≠ quote) := by
  by_cases hc : c = quote
  · subst hc
    cases allowed with
    | zero => exact ⟨_, _, rfl, fun _ => by decide, fun _ => by decide⟩
    | succ allowed => exact ⟨_, _, rfl, fun _ => by decide, fun h => absurd rfl (h.resolve_left nofun)⟩
  · rw [quotedText_cons hc, inner]
    split_ifs with hback hescaped
    · exact ⟨_, _, rfl, fun _ => by decide, fun _ => by decide⟩
    · unfold escapeControl
      split_ifs <;> exact ⟨_, _, rfl, fun _ => by decide, fun _ => by decide⟩
    · refine ⟨_, _, rfl, fun hline => isPlain_of_not_isControl ?_ hline, fun _ => hc⟩
      simp_all

/-- A quote that is written as it is ends the string if two more follow, and belongs to it if not. -/
theorem quotedOnto_quote (done cs : List Char) : quotedOnto true (.plain false) done (quote :: cs) =
    match twoMore? quote cs with
    | some after => some (closing quote done after)
    | none => quotedOnto true (.plain false) (quote :: done) cs := rfl

/-- Two more quotes follow a quote that is written as it is only at the end of a string. -/
theorem twoMore?_quotedText {allowed : Nat} (hallowed : allowed ≤ 1) {cs : List Char} (hne : cs ≠ [])
    (hlast : allowed = 1 → cs ≠ [quote]) (tail : List Char) :
    twoMore? quote (quotedText true allowed cs ++ tail) = none := by
  cases cs with
  | nil => exact absurd rfl hne
  | cons d ds =>
    by_cases hd : allowed = 0 ∨ d ≠ quote
    · obtain ⟨e, es, hes, -, he⟩ := quotedText_head true allowed d ds
      rw [hes]
      exact twoMore?_of_head (by simpa using he hd)
    · obtain ⟨hzero, rfl⟩ : allowed ≠ 0 ∧ d = quote := by simpa using hd
      obtain rfl : allowed = 1 := by omega
      rw [(quotedText_quote true ds).2]
      cases ds with
      | nil => exact absurd rfl (hlast rfl)
      | cons e es =>
        obtain ⟨a, as, has, -, ha⟩ := quotedText_head true 0 e es
        rw [has]
        exact twoMore?_of_second (by simpa using ha (.inl rfl))

/-- **A string between quotes is read as it was written.** -/
theorem quotedOnto_quotedText (hrest : rest.head? ≠ some quote) {allowed : Nat}
    (hallowed : allowed ≤ spare several) (done s : List Char) :
    quotedOnto several (.plain false) done (quotedText several allowed s ++ (ending quote several ++ rest)) =
      some (done.reverse ++ s, rest) := by
  induction s generalizing done allowed with
  | nil =>
    rw [List.append_nil]
    cases several with
    | false => rfl
    | true => exact congrArg some (closing_of_head hrest).1
  | cons c s ih =>
    by_cases hc : c = quote
    · subst hc
      cases allowed with
      | zero =>
        rw [(quotedText_quote several s).1]
        refine (ih (Nat.le_refl _) (quote :: done)).trans ?_
        simp
      | succ allowed =>
        obtain rfl : several = true := by
          cases several with
          | true => rfl
          | false => cases hallowed
        have hone : allowed ≤ 1 := Nat.le_of_succ_le_succ hallowed
        rw [(quotedText_quote true s).2, List.cons_append, quotedOnto_quote]
        by_cases hnil : s = []
        · subst hnil
          refine (congrArg some (closing_of_head hrest).2.1).trans ?_
          simp
        · by_cases hlast : allowed = 1 ∧ s = [quote]
          · obtain ⟨rfl, rfl⟩ := hlast
            refine (congrArg some (closing_of_head hrest).2.2).trans ?_
            simp
          · rw [twoMore?_quotedText hone hnil fun h1 h2 => hlast ⟨h1, h2⟩]
            refine (ih (Nat.le_of_succ_le hallowed) (quote :: done)).trans ?_
            simp
    · rw [quotedText_cons hc, List.append_assoc, quotedOnto_inner hc, ih (Nat.le_refl _)]
      simp

/-! ## Between apostrophes -/

/-- A string that can stand between apostrophes: one of them would end it on a single line, and three of
them on several. -/
structure Literal (several : Bool) (s : List Char) : Prop where
  plain : ∀ c ∈ s, isPlain c = true ∨ several = true ∧ c = '\n'
  apart : ¬ ending apostrophe several <:+: s

theorem Literal.tail (h : Literal several (c :: s)) : Literal several s :=
  ⟨fun d hd => h.plain d (List.mem_cons_of_mem c hd),
    fun hs => h.apart (hs.trans (List.suffix_cons c s).isInfix)⟩

theorem literalOnto_apostrophe (done cs : List Char) : literalOnto true done (apostrophe :: cs) =
    match twoMore? apostrophe cs with
    | some after => some (closing apostrophe done after)
    | none => literalOnto true (apostrophe :: done) cs := rfl

/-- Two more apostrophes follow another one only at the end of a string. -/
theorem Literal.twoMore? (h : Literal true (apostrophe :: s)) (hne : s ≠ []) (hlast : s ≠ [apostrophe])
    (tail : List Char) : twoMore? apostrophe (s ++ tail) = none := by
  match s with
  | [] => exact absurd rfl hne
  | [d] => exact twoMore?_of_head (by simpa using hlast)
  | d :: e :: cs =>
    by_cases hd : d = apostrophe
    · subst hd
      have he : e ≠ apostrophe := by
        rintro rfl
        exact h.apart ⟨[], cs, rfl⟩
      exact twoMore?_of_second (by simpa using he)
    · exact twoMore?_of_head (by simpa using hd)

/-- **A string between apostrophes is read as it was written.** -/
theorem Literal.literalOnto (h : Literal several s) (hrest : rest.head? ≠ some apostrophe)
    (done : List Char) :
    literalOnto several done (s ++ (ending apostrophe several ++ rest)) = some (done.reverse ++ s, rest) := by
  induction s generalizing done with
  | nil =>
    rw [List.append_nil]
    cases several with
    | false => rfl
    | true => exact congrArg some (closing_of_head hrest).1
  | cons c s ih =>
    by_cases hc : c = apostrophe
    · subst hc
      cases several with
      | false => exact absurd ⟨[], s, rfl⟩ h.apart
      | true =>
        rw [List.cons_append, literalOnto_apostrophe]
        by_cases hnil : s = []
        · subst hnil
          refine (congrArg some (closing_of_head hrest).2.1).trans ?_
          simp
        · by_cases hlast : s = [apostrophe]
          · subst hlast
            refine (congrArg some (closing_of_head hrest).2.2).trans ?_
            simp
          · rw [h.twoMore? hnil hlast]
            refine (ih h.tail (apostrophe :: done)).trans ?_
            simp
    · have hplain : (isPlain c || several && c = '\n') = true := by
        simpa using h.plain c List.mem_cons_self
      rw [List.cons_append, Text.literalOnto.eq_def]
      simp only [if_neg hc, hplain, if_true]
      rw [ih h.tail]
      simp

end Text

/-! ## The form of a string -/

theorem le_longestRun (sign : Char) (run : Nat) (s : List Char) : run ≤ longestRun sign run s := by
  induction s generalizing run with
  | nil => exact Nat.le_refl run
  | cons c s ih =>
    rw [longestRun]
    split_ifs
    · exact Nat.le_of_succ_le (ih (run + 1))
    · exact Nat.le_max_left _ _

/-- No run in a string is longer than the longest one. -/
theorem le_longestRun_of_infix {sign : Char} {n : Nat} (h : List.replicate n sign <:+: s) (run : Nat) :
    n ≤ longestRun sign run s := by
  have hfront : ∀ n run after, run + n ≤ longestRun sign run (List.replicate n sign ++ after) := by
    intro n
    induction n with
    | zero => exact fun run after => le_longestRun sign run after
    | succ n ih =>
      intro run after
      rw [List.replicate_succ, List.cons_append, longestRun, if_pos rfl]
      have := ih (run + 1) after
      omega
  obtain ⟨before, after, rfl⟩ := h
  rw [List.append_assoc]
  induction before generalizing run with
  | nil =>
    have := hfront n run after
    rw [List.nil_append]
    omega
  | cons c before ih =>
    rw [List.cons_append, longestRun]
    split_ifs
    · exact ih (run + 1)
    · exact Nat.le_trans (ih 0) (Nat.le_max_right _ _)

namespace Style

/-- A string of several lines stands between three signs. -/
theorem several_of_lines (h : '\n' ∈ s) : (Style.of s).several = true := by
  simp only [Style.of, h]
  split_ifs <;> simp_all

/-- **A string is written between apostrophes only if it can stand there.** -/
theorem literal_of (h : (Style.of s).escapes = false) : Literal (Style.of s).several s := by
  have hplain : s.any isControl = false → ∀ c ∈ s, c ≠ '\n' → isPlain c = true := by
    intro hnone c hc hline
    exact isPlain_of_not_isControl (by simpa using List.any_eq_false.mp hnone c hc) hline
  simp only [Style.of] at h ⊢
  split_ifs at h ⊢ with hcontrol _ hline _ hseveral
  · have hnone := hplain (by simpa using hcontrol)
    simp only [Bool.and_eq_true, decide_eq_true_eq, Bool.not_eq_true', decide_eq_false_iff_not] at hline
    refine ⟨fun c hc => .inl (hnone c hc fun hc' => hline.2 (hc' ▸ hc)), fun hrun => ?_⟩
    have hone : 1 ≤ longestRun apostrophe 0 s := le_longestRun_of_infix hrun 0
    omega
  · have hnone := hplain (by simpa using hcontrol)
    refine ⟨fun c hc => ?_, fun hrun => ?_⟩
    · by_cases hc' : c = '\n'
      · exact .inr ⟨rfl, hc'⟩
      · exact .inl (hnone c hc hc')
    · have hthree : 3 ≤ longestRun apostrophe 0 s := le_longestRun_of_infix hrun 0
      omega

end Style

/-! ## Any form -/

/-- Behind a string stands no sign that could belong to it. -/
def Text.Follows (rest : List Char) : Prop :=
  rest.head? ≠ some quote ∧ rest.head? ≠ some apostrophe

theorem Text.follows_cons (hquote : c ≠ quote) (hapostrophe : c ≠ apostrophe) (rest : List Char) :
    Text.Follows (c :: rest) := ⟨by simpa using hquote, by simpa using hapostrophe⟩

theorem Style.delimiter_eq (y : Style) : y.delimiter = ending y.sign y.several := rfl

/-- Reading on behind the first signs of a form. -/
def Style.readOn? (y : Style) (cs : List Char) : Option (List Char × List Char) :=
  if y.escapes then quotedOnto y.several (.plain false) [] cs else literalOnto y.several [] cs

/-- What is written between the signs, without the line end behind the first ones. -/
theorem Style.readOn?_body (hrest : Text.Follows rest) :
    (Style.of s).readOn? ((Style.of s).body s ++ ((Style.of s).delimiter ++ rest)) = some (s, rest) := by
  cases hescapes : (Style.of s).escapes with
  | true =>
    have hread := quotedOnto_quotedText hrest.1 (Nat.le_refl (spare (Style.of s).several)) [] s
    rw [Style.readOn?, Style.delimiter_eq, Style.sign, Style.body, hescapes]
    exact hread
  | false =>
    have hread := (Style.literal_of hescapes).literalOnto hrest.2 []
    rw [Style.readOn?, Style.delimiter_eq, Style.sign, Style.body, hescapes]
    exact hread

/-- A single sign begins a string on one line. -/
theorem Style.read?_single {y : Style} (hsingle : y.several = false) {cs : List Char}
    (htwo : twoMore? y.sign cs = none) :
    Text.read? (y.sign :: cs) = (y.readOn? cs).map fun r => (String.ofList r.1, r.2) := by
  rw [Text.read?, htwo]
  unfold Style.readOn? Style.sign
  rw [hsingle]
  cases y.escapes <;> rfl

/-- Three signs begin a string that may go over several lines. -/
theorem Style.read?_several {y : Style} (hseveral : y.several = true) (cs : List Char) :
    Text.read? (y.sign :: y.sign :: y.sign :: cs) =
      (y.readOn? (dropLineEnd cs)).map fun r => (String.ofList r.1, r.2) := by
  have htwo : twoMore? y.sign (y.sign :: y.sign :: cs) = some cs := by simp [twoMore?]
  rw [Text.read?, htwo]
  unfold Style.readOn? Style.sign
  rw [hseveral]
  cases y.escapes <;> rfl

theorem Style.plain_sign (y : Style) : isPlain y.sign = true := by
  unfold Style.sign
  split <;> decide

theorem dropLineEnd_of_plain {cs : List Char} (h : ∀ c ∈ cs.head?, isPlain c = true) :
    dropLineEnd cs = cs := by
  unfold dropLineEnd
  split
  · exact absurd (h _ rfl) (by decide)
  · exact absurd (h _ rfl) (by decide)
  · rfl

/-- A string without line ends begins with a character that may stand on a line. -/
theorem Style.plain_body (hline : '\n' ∉ s) (tail : List Char) :
    ∀ c ∈ ((Style.of s).body s ++ ((Style.of s).sign :: tail)).head?, isPlain c = true := by
  rintro d hd
  cases s with
  | nil =>
    have hbody : (Style.of []).body [] = [] := rfl
    rw [hbody] at hd
    cases hd
    exact (Style.of []).plain_sign
  | cons c s =>
    obtain ⟨hc, -⟩ := not_or.mp (mt List.mem_cons.mpr hline)
    cases hescapes : (Style.of (c :: s)).escapes with
    | false =>
      have hplain := (Style.literal_of hescapes).plain c List.mem_cons_self
      rw [Style.body, hescapes] at hd
      cases hd
      exact hplain.resolve_right fun h => hc h.2.symm
    | true =>
      obtain ⟨e, es, hes, hplain, -⟩ := quotedText_head (Style.of (c :: s)).several
        (spare (Style.of (c :: s)).several) c s
      have hbody : (Style.of (c :: s)).body (c :: s) = e :: es := by
        rw [Style.body, hescapes]
        exact hes
      rw [hbody] at hd
      cases hd
      exact hplain (Ne.symm hc)

/-- Between single signs, the first sign does not pass for three. -/
theorem Style.twoMore?_body (hsingle : (Style.of s).several = false) (hrest : Text.Follows rest) :
    twoMore? (Style.of s).sign ((Style.of s).body s ++ ((Style.of s).sign :: rest)) = none := by
  have hsign : rest.head? ≠ some (Style.of s).sign := by
    unfold Style.sign
    split
    · exact hrest.1
    · exact hrest.2
  cases s with
  | nil => exact twoMore?_of_second hsign
  | cons c s =>
    refine twoMore?_of_head ?_
    cases hescapes : (Style.of (c :: s)).escapes with
    | false =>
      have hc : c ≠ apostrophe := by
        rintro rfl
        have happart := (Style.literal_of hescapes).apart
        rw [hsingle] at happart
        exact happart ⟨[], s, rfl⟩
      simpa [Style.body, Style.sign, hescapes] using hc
    | true =>
      obtain ⟨e, es, hes, -, he⟩ := quotedText_head false 0 c s
      simpa [Style.body, Style.sign, hescapes, hsingle, hes] using he (.inl rfl)

/-- A string begins with a sign. -/
theorem writeText_cons (s : List Char) : ∃ c cs, writeText s = c :: cs ∧ (c = quote ∨ c = apostrophe) := by
  have hsign : (Style.of s).sign = quote ∨ (Style.of s).sign = apostrophe := by
    unfold Style.sign
    split
    · exact .inl rfl
    · exact .inr rfl
  have hdelimiter : ∃ cs, (Style.of s).delimiter = (Style.of s).sign :: cs := by
    unfold Style.delimiter
    split <;> exact ⟨_, rfl⟩
  obtain ⟨cs, hcs⟩ := hdelimiter
  rw [writeText, hcs]
  exact ⟨_, _, rfl, hsign⟩

/-- **A string is read as it was written**, whatever stands behind it but a sign of a string. -/
theorem Text.read?_writeText (hrest : Text.Follows rest) (s : List Char) :
    Text.read? (writeText s ++ rest) = some (String.ofList s, rest) := by
  have hbody := Style.readOn?_body (s := s) hrest
  cases hseveral : (Style.of s).several with
  | false =>
    have hline : '\n' ∉ s := fun h => by simp [Style.several_of_lines h] at hseveral
    have htext : writeText s ++ rest =
        (Style.of s).sign :: ((Style.of s).body s ++ ((Style.of s).sign :: rest)) := by
      simp [writeText, Style.delimiter, hseveral, hline]
    rw [Style.delimiter, hseveral] at hbody
    rw [htext, Style.read?_single hseveral (Style.twoMore?_body hseveral hrest)]
    exact congrArg _ hbody
  | true =>
    have htext : ∃ cs, writeText s ++ rest = (Style.of s).sign :: (Style.of s).sign :: (Style.of s).sign :: cs ∧
        dropLineEnd cs = (Style.of s).body s ++ ((Style.of s).delimiter ++ rest) := by
      by_cases hline : '\n' ∈ s
      · refine ⟨'\n' :: ((Style.of s).body s ++ ((Style.of s).delimiter ++ rest)), ?_, rfl⟩
        simp [writeText, Style.delimiter, hseveral, hline]
      · refine ⟨(Style.of s).body s ++ ((Style.of s).delimiter ++ rest), ?_, ?_⟩
        · simp [writeText, Style.delimiter, hseveral, hline]
        · refine dropLineEnd_of_plain ?_
          rw [Style.delimiter, hseveral]
          exact Style.plain_body hline _
    obtain ⟨cs, hcs, hdrop⟩ := htext
    rw [hcs, Style.read?_several hseveral, hdrop, hbody, Option.map_some]

end BoothLink.Toml
