import BoothLink.Proofs.Catalog.Growing
import BoothLink.Proofs.Message.Canonical

/-!
# A look and the reader agree

The words of a kind are compared twice: in a look at a fixed place of the octets, and when they are read,
in a frame after its content has been taken off. What a look has found is never refused for its words when
it is read, even in a frame that is too short for them; and what can be read is found by a look, but for
two kinds of beat frames with octets behind their words, which a look turns down. The kinds of one
transport are looked for in the same octets and begin with different words, so that their order does not
matter.

* `Read.Sure`: a read that does not refuse words, with `Sure.bind` for sequences.
* `MessageKind.peek_take`, `MessageKind.peek_needMore_iff`: a look is at so many octets and no others.
* `MessageKind.sure_of_peek`: the words that a look has found are not refused.
* `MessageKind.peek_of_decode`: what was read is found by a look, or is padded.
* `Catalog.identifyIn_perm`: kinds that are looked for in the same octets, one of which matches at most.
* **`Catalog.peek_agrees_decode`**: looking and reading agree.
-/

namespace BoothLink

/-! ## Words that are refused -/

/-- The error says that other words were expected. -/
def WireError.IsMagic (e : WireError) : Prop := ∃ expected found, e = .invalidMagic expected found

namespace Read

variable {α β : Type}

/-- The read never finds words that it did not expect. -/
def Sure (r : Read α) : Prop := ∀ c e, (run r c).1 = .error e → ¬ e.IsMagic

theorem sure_pure (a : α) : Sure (pure a : Read α) := nofun

theorem sure_give (a : α) : Sure (give a) := nofun

theorem sure_fail {e : WireError} (h : ¬ e.IsMagic) : Sure (fail e : Read α) := by
  rintro c _ ⟨⟩
  exact h

theorem Sure.bind {r : Read α} {f : α → Read β} (hr : Sure r) (hf : ∀ a, Sure (f a)) :
    Sure (r >>= f) := by
  intro c e h
  rw [run_bind] at h
  split at h
  · next a c₁ _ => exact hf a c₁ e h
  · next e₁ c₁ h₁ =>
    cases h
    exact hr c e (congrArg Prod.fst h₁)

theorem sure_take (n : Nat) : Sure (take n) := by
  intro c e h
  rw [take_run] at h
  split at h
  · cases h
  · cases h
    rintro ⟨_, _, ⟨⟩⟩

theorem sure_number (width : Nat) : Sure (number width) := (sure_take width).bind fun _ => sure_pure _

theorem sure_u16 : Sure u16 := (sure_number 2).bind fun _ => sure_pure _

theorem sure_u32 : Sure u32 := (sure_number 4).bind fun _ => sure_pure _

theorem sure_u64 : Sure u64 := (sure_number 8).bind fun _ => sure_pure _

theorem sure_i64 : Sure i64 := sure_u64.bind fun _ => sure_pure _

theorem sure_f64 : Sure f64 := sure_u64.bind fun _ => sure_pure _

theorem sure_token : Sure token :=
  (sure_take Token.width).bind fun b => by
    cases Token.ofOctets? b with
    | some t => exact sure_pure t
    | none => exact sure_fail (by rintro ⟨_, _, ⟨⟩⟩)

theorem sure_counted : Sure counted :=
  (sure_number 4).bind fun size => by
    by_cases h : frameLimit < size
    · rw [if_pos h]
      exact sure_fail (by rintro ⟨_, _, ⟨⟩⟩)
    · rw [if_neg h]
      exact sure_take size

theorem sure_utf16 : Sure utf16 :=
  sure_counted.bind fun raw => by
    cases textOfUnits raw with
    | ok s => exact sure_give s
    | error fault => exact sure_fail (by rintro ⟨_, _, ⟨⟩⟩)

theorem sure_times {r : Read α} (h : Sure r) (n : Nat) (done : List α) : Sure (times r n done) := by
  induction n generalizing done with
  | zero => exact sure_pure _
  | succ n ih => exact h.bind fun a => ih (a :: done)

theorem sure_ensure (records width : Nat) : Sure (ensure records width) := by
  intro c e h
  rw [ensure_run] at h
  split at h
  · cases h
    rintro ⟨_, _, ⟨⟩⟩
  · cases h

theorem sure_deck : Sure deck :=
  sure_f64.bind fun _ => sure_f64.bind fun _ => sure_f64.bind fun _ => sure_pure _

theorem sure_beatSample : Sure beatSample :=
  sure_u64.bind fun _ => sure_u32.bind fun _ => (sure_ensure _ _).bind fun _ =>
    (sure_times sure_deck _ _).bind fun _ => (sure_ensure _ _).bind fun _ =>
      (sure_times sure_f64 _ _).bind fun _ => sure_pure _

theorem sure_announcement : Sure announcement :=
  sure_token.bind fun _ => sure_utf16.bind fun _ => sure_utf16.bind fun text =>
    sure_utf16.bind fun _ => sure_utf16.bind fun _ => sure_u16.bind fun _ => by
      unfold Action.ofWire
      split_ifs
      · exact sure_pure _
      · exact sure_pure _
      · exact sure_fail (by rintro ⟨_, _, ⟨⟩⟩)

end Read

namespace MessageKind

open Read

variable {k : MessageKind} {b : Octets} {m : Message} {n : Nat} {e : WireError}

theorem sure_fieldsReader (k : MessageKind) : Sure k.fieldsReader := by
  cases k with
  | serviceAnnouncement =>
    exact sure_token.bind fun _ => sure_utf16.bind fun _ => sure_u16.bind fun _ => sure_pure _
  | reference =>
    exact sure_token.bind fun _ => sure_token.bind fun _ => sure_i64.bind fun _ => sure_pure _
  | servicesRequest => exact sure_token.bind fun _ => sure_pure _
  | stateSubscribe | stateEmitResponse =>
    exact sure_utf16.bind fun _ => sure_u32.bind fun _ => sure_pure _
  | stateEmit => exact sure_utf16.bind fun _ => sure_utf16.bind fun _ => sure_pure _
  | beatStartStream | beatStopStream => exact sure_pure _
  | beatEmit => exact sure_beatSample.bind fun _ => sure_pure _
  | discovery => exact sure_announcement.bind fun _ => sure_pure _

/-! ## How far a look goes -/

/-- **A look asks for more exactly if fewer octets are there than it needs.** -/
theorem peek_needMore_iff :
    k.peek b = .needMore n ↔ n = k.framing.lookahead ∧ b.length < k.framing.lookahead := by
  by_cases h : b.length < k.framing.lookahead
  · rw [peek_short h, Peek.needMore.injEq, eq_comm, and_iff_left h]
  · rw [peek_eq (Nat.not_lt.mp h)]
    cases k.begins b <;> simp [h]

/-- **What is behind the octets of a look makes no difference.** -/
theorem peek_take (k : MessageKind) (b : Octets) : k.peek (b.take k.framing.lookahead) = k.peek b := by
  by_cases h : k.framing.lookahead ≤ b.length
  · have hall := peek_append (List.length_take_of_le h).ge (b.drop k.framing.lookahead)
    rw [List.take_append_drop] at hall
    exact hall.symm
  · rw [List.take_of_length_le (Nat.le_of_not_le h)]

/-! ## What a look has found -/

/-- Octets that begin with the words of a kind, or end inside them, are not refused for them. -/
theorem sure_bodyReader
    (h : b <+: k.framing.opening.flatten ∨ k.framing.opening.flatten <+: b)
    (he : (run k.bodyReader (Cursor.start b)).1 = .error e) : ¬ e.IsMagic := by
  have hwhole : k.framing.opening.flatten <+: b → ¬ e.IsMagic := by
    rintro ⟨rest, rfl⟩
    rw [run_bodyReader] at he
    exact k.sure_fieldsReader _ _ he
  rcases h with hpre | hpre
  · by_cases hsame : b = k.framing.opening.flatten
    · exact hwhole (hsame ▸ List.prefix_refl _)
    · -- The words are cut, so there are too few octets for them.
      have hcut := (takes_expectAll k.framing.opening).truncated (settled_expectAll _) hpre hsame 0
      have hout : RunsOut k.bodyReader (Cursor.start b) := runsOut_bind.mpr (.inl hcut)
      rw [RunsOut, he] at hout
      cases hout
      rintro ⟨_, _, ⟨⟩⟩
  · exact hwhole hpre

/-- **What a look has found is not refused for its words.** -/
theorem sure_of_peek (h : k.peek b = .matched) (he : k.decode b = .error e) : ¬ e.IsMagic := by
  obtain ⟨hlook, hbegins⟩ := peek_matched_iff.mp h
  rw [decode_error_iff, reader] at he
  cases hframe : k.framing.isFrame with
  | false =>
    rw [hframe, if_neg (by decide)] at he
    obtain ⟨hwords, -⟩ := begins_iff.mp hbegins
    rw [words, hframe, if_neg (by decide)] at hwords
    exact sure_bodyReader (.inr (hwords ▸ List.take_prefix _ _)) he
  | true =>
    rw [hframe, if_pos rfl, framed, run_bind] at he
    split at he
    · next content c hcounted =>
      -- The content that was taken off is what a look goes into.
      obtain ⟨hlim, hahead, -⟩ := counted_ok_iff.mp hcounted
      have hb : b = Octets.ofNat 4 content.length ++ (content ++ c.ahead) := by
        rw [← List.append_assoc]
        exact hahead
      have hsize : frameSize b = content.length := by
        rw [frameSize, hb, List.take_left' (Octets.length_ofNat _ _), Message.value_length hlim]
      have hcontent : frameContent b = content := by
        rw [frameContent, hsize, hb, List.drop_left' (Octets.length_ofNat _ _), List.take_left]
      have hopens := content_opens hframe hbegins
      rw [hcontent] at hopens
      split at he
      · cases he
      · next hbody =>
        cases he
        exact sure_bodyReader hopens hbody
    · next hcounted =>
      cases he
      exact sure_counted _ _ (congrArg Prod.fst hcounted)

/-! ## What was read -/

/-- The frame of a message that was read begins with the words of its kind. -/
theorem begins_of_frame (hframe : k.framing.isFrame = true) (h : k.decode b = .ok (m, n)) :
    k.framing.lookahead ≤ b.length ∧ k.words b = k.framing.opening.flatten ∧
      ∃ size, k.lengthFits size = true ∧ size ≤ frameSize b := by
  obtain ⟨harrived, -, rfl, -, body, hbody, hpre⟩ := frame_of_decode hframe h
  obtain ⟨-, x, -, rfl⟩ := Message.body_inv hbody
  obtain ⟨hfour, hopen⟩ := length_opening_frame hframe
  have hwhole := harrived.whole
  have hle := hpre.length_le
  rw [harrived.length_content, List.length_append] at hle
  refine ⟨by omega, ?_, _, Message.lengthFits_body hbody, ?_⟩
  · have hwords : m.kind.framing.opening.flatten <+: b.drop 4 :=
      (List.prefix_append _ x).trans (hpre.trans (List.take_prefix _ _))
    rw [words, if_pos hframe, ← hopen]
    exact (List.prefix_iff_eq_take.mp hwords).symm
  · rwa [List.length_append]

/-- **What was read is found by a look**, but for a frame that starts or stops beats and declares more than
its words. -/
theorem peek_of_decode (h : k.decode b = .ok (m, n)) :
    k.peek b = .matched ↔ ¬ ((k = beatStartStream ∨ k = beatStopStream) ∧ 4 < frameSize b) := by
  cases hframe : k.framing.isFrame with
  | false =>
    obtain ⟨rfl, -, hencode⟩ := encode_of_decode_bare hframe h
    have hfound := Message.peek_encode hencode (b.drop n)
    rw [List.take_append_drop] at hfound
    refine iff_of_true hfound ?_
    rintro ⟨hkind | hkind, -⟩ <;> simp [hkind, framing, Framing.isFrame] at hframe
  | true =>
    obtain ⟨hlook, hwords, size, hfits, hsize⟩ := begins_of_frame hframe h
    have hbegins : k.peek b = .matched ↔ k.lengthFits (frameSize b) = true := by
      rw [peek_matched_iff, and_iff_right hlook, begins_iff, and_iff_right hwords]
      exact ⟨fun hlength => hlength hframe, fun hlength _ => hlength⟩
    rw [hbegins]
    cases k with
    | beatStartStream | beatStopStream =>
      simp only [lengthFits, decide_eq_true_eq] at hfits ⊢
      simp only [reduceCtorEq, or_false, false_or, true_and]
      omega
    | beatEmit =>
      simp only [lengthFits, decide_eq_true_eq] at hfits ⊢
      exact iff_of_true (hfits.trans hsize) (by simp)
    | stateSubscribe | stateEmit | stateEmitResponse => exact iff_of_true rfl (by simp)
    | serviceAnnouncement | reference | servicesRequest | discovery => cases hframe

end MessageKind

namespace Catalog

variable {catalog : Catalog} {b : Octets} {e : WireError} {ks ks' : List MessageKind}

theorem peek_of_identifyIn {k : MessageKind} (h : identifyIn b ks = .ok (some k)) :
    k.peek b = .matched := by
  induction ks with
  | nil => cases h
  | cons k' ks ih =>
    rw [identifyIn] at h
    split at h
    · next hpeek =>
      cases h
      exact hpeek
    · exact ih h
    · cases h

theorem sure_identify (h : catalog.identify b = .error e) : ¬ e.IsMagic := by
  rw [identifyIn_error h]
  rintro ⟨_, _, ⟨⟩⟩

theorem sure_decode (h : catalog.decode b = .error e) : ¬ e.IsMagic := by
  unfold decode at h
  split at h
  · next hid =>
    cases h
    exact sure_identify hid
  · cases h
  · next k hid =>
    split at h
    · cases h
    · cases h
    · next hk =>
      cases h
      exact MessageKind.sure_of_peek (peek_of_identifyIn hid) hk

theorem sure_decodeDatagram (h : catalog.decodeDatagram b = .error e) : ¬ e.IsMagic := by
  unfold decodeDatagram at h
  split at h
  · next hid =>
    cases h
    exact sure_identify hid
  · cases h
    rintro ⟨_, _, ⟨⟩⟩
  · next k hid =>
    cases hk : k.decode b with
    | ok found =>
      rw [hk] at h
      cases h
    | error e' =>
      rw [hk] at h
      cases h
      exact MessageKind.sure_of_peek (peek_of_identifyIn hid) hk

/-! ## The order of kinds -/

/-- Kinds that are looked for in the same octets, with different words. -/
def Exclusive (ks : List MessageKind) : Prop := ∀ k ∈ ks, ∀ k' ∈ ks,
  k.framing.lookahead = k'.framing.lookahead ∧ k.framing.isFrame = k'.framing.isFrame ∧
    (k = k' ∨ k.apart k' = true)

instance (ks : List MessageKind) : Decidable (Exclusive ks) := by unfold Exclusive; infer_instance

theorem builtIn_exclusive :
    ∀ catalog ∈ [mainLink, stateMap, beatInfo, discovery], Exclusive catalog.kinds := by decide

/-- **At most one of such kinds is found.** -/
theorem Exclusive.eq_of_peek (h : Exclusive ks) {k k' : MessageKind} (hk : k ∈ ks) (hk' : k' ∈ ks)
    (hpeek : k.peek b = .matched) (hpeek' : k'.peek b = .matched) : k = k' := by
  obtain ⟨-, hsame, heq | hapart⟩ := h k hk k' hk'
  · exact heq
  · have hbegins := (MessageKind.peek_matched_iff.mp hpeek).2
    have hnot := (MessageKind.not_begins_of_begins (MessageKind.peek_matched_iff.mp hpeek').2 hapart hsame).2
    rw [hbegins] at hnot
    cases hnot

/-- **The order of such kinds makes no difference.** -/
theorem identifyIn_perm (h : Exclusive ks) (hperm : ks.Perm ks') : identifyIn b ks = identifyIn b ks' := by
  induction hperm with
  | nil => rfl
  | cons k _ ih =>
    have htail := ih fun k₁ h₁ k₂ h₂ => h k₁ (List.mem_cons_of_mem _ h₁) k₂ (List.mem_cons_of_mem _ h₂)
    rw [identifyIn, identifyIn, htail]
  | swap k k' ks =>
    have hk : k ∈ k' :: k :: ks := by simp
    have hk' : k' ∈ k' :: k :: ks := by simp
    by_cases hshort : b.length < k.framing.lookahead
    · have hlook := (h k hk k' hk').1
      simp only [identifyIn, MessageKind.peek_short hshort, MessageKind.peek_short (hlook ▸ hshort)]
    · -- Both are told, and at most one of them is found.
      have hmore : ∀ k₁ ∈ k' :: k :: ks, ∀ n, k₁.peek b ≠ .needMore n := by
        intro k₁ h₁ n hneed
        have hlook := (h k hk k₁ h₁).1
        exact hshort (hlook ▸ (MessageKind.peek_needMore_iff.mp hneed).2)
      have hone := h.eq_of_peek (b := b) hk' hk
      cases hpeek : k.peek b with
      | needMore n => exact absurd hpeek (hmore k hk n)
      | mismatch => simp only [identifyIn, hpeek]
      | matched =>
        cases hpeek' : k'.peek b with
        | needMore n => exact absurd hpeek' (hmore k' hk' n)
        | mismatch => simp only [identifyIn, hpeek, hpeek']
        | matched => rw [hone hpeek' hpeek]
  | trans hfirst _ ih ih' =>
    refine (ih h).trans (ih' fun k hk k' hk' => ?_)
    exact h k (hfirst.mem_iff.mpr hk) k' (hfirst.mem_iff.mpr hk')

theorem decode_perm (h : Exclusive catalog.kinds) (hperm : ks.Perm catalog.kinds) (name : String)
    (b : Octets) : decode ⟨name, ks⟩ b = catalog.decode b ∧
      decodeDatagram ⟨name, ks⟩ b = catalog.decodeDatagram b := by
  have hid : identify ⟨name, ks⟩ b = catalog.identify b := (identifyIn_perm h hperm.symm).symm
  exact ⟨by rw [decode, decode, hid], by rw [decodeDatagram, decodeDatagram, hid]⟩

/-- **Looking and reading agree.** A look needs 4, 8 or 12 octets, asks for them exactly if they are not
there, and goes by them alone. What it has found is not refused for its words, so that no catalog ever
says that other words were expected. What can be read is found by a look, but for padded frames that start
or stop beats. Of the kinds of one transport at most one is found, in whatever order they are tried. -/
theorem peek_agrees_decode :
    (∀ k : MessageKind, ∃ n, n = (match k with
        | .serviceAnnouncement | .reference | .servicesRequest | .discovery => 4
        | .beatStartStream | .beatStopStream | .beatEmit => 8
        | .stateSubscribe | .stateEmit | .stateEmitResponse => 12) ∧
      (∀ b i, k.peek b = .needMore i ↔ i = n ∧ b.length < n) ∧
      ∀ b, k.peek (b.take n) = k.peek b) ∧
    (∀ (k : MessageKind) b e, k.peek b = .matched → k.decode b = .error e → ¬ e.IsMagic) ∧
    (∀ (catalog : Catalog) b e,
      catalog.decode b = .error e ∨ catalog.decodeDatagram b = .error e → ¬ e.IsMagic) ∧
    (∀ (k : MessageKind) b m n, k.decode b = .ok (m, n) → (k.peek b = .matched ↔
      ¬ ((k = .beatStartStream ∨ k = .beatStopStream) ∧ 4 < frameSize b))) ∧
    ∀ catalog ∈ [mainLink, stateMap, beatInfo, discovery], ∀ b,
      (∀ k ∈ catalog.kinds, ∀ k' ∈ catalog.kinds,
        k.peek b = .matched → k'.peek b = .matched → k = k') ∧
      ∀ name ks, ks.Perm catalog.kinds → decode ⟨name, ks⟩ b = catalog.decode b ∧
        decodeDatagram ⟨name, ks⟩ b = catalog.decodeDatagram b := by
  refine ⟨fun k => ⟨k.framing.lookahead, ?_, fun b i => MessageKind.peek_needMore_iff, k.peek_take⟩,
    fun k b e => MessageKind.sure_of_peek, fun catalog b e h => h.elim sure_decode sure_decodeDatagram,
    fun k b m n => MessageKind.peek_of_decode, fun catalog hcat b => ?_⟩
  · cases k <;> rfl
  · have hexclusive := builtIn_exclusive catalog hcat
    exact ⟨fun k hk k' hk' => hexclusive.eq_of_peek hk hk', fun name ks hperm =>
      decode_perm hexclusive hperm name b⟩

/-- A frame that starts beats, with an octet behind its words. -/
def paddedStart : Octets := [0, 0, 0, 5, 0, 0, 0, 0, 9]

/-- A frame that ends inside the words that a look finds behind it. -/
def cutWords : Octets := [0, 0, 0, 6, 0x73, 0x6D, 0x61, 0x61, 0, 0, 0, 0]

/-- The padded frame can be read and is not found, the cut one is found and is not refused for its words,
and whoever looks for states from the last kind to the first finds the same in it. -/
theorem peek_agrees_decode_padded :
    MessageKind.beatStartStream.decode paddedStart = .ok (.beatStartStream, 9) ∧
      MessageKind.beatStartStream.peek paddedStart ≠ .matched ∧
      MessageKind.stateEmit.peek cutWords = .matched ∧
      MessageKind.stateEmit.decode cutWords = .error .truncated ∧ ¬ WireError.truncated.IsMagic ∧
      decode ⟨"reversed", stateMap.kinds.reverse⟩ cutWords = stateMap.decode cutWords := by
  obtain ⟨-, hwords, -, hread, horder⟩ := peek_agrees_decode
  have hpadded : MessageKind.beatStartStream.decode paddedStart = .ok (.beatStartStream, 9) := rfl
  have hfound : MessageKind.stateEmit.peek cutWords = .matched := by decide
  have hcut : MessageKind.stateEmit.decode cutWords = .error .truncated := rfl
  refine ⟨hpadded, ?_, hfound, hcut, hwords _ _ _ hfound hcut, ?_⟩
  · rw [Ne, hread _ _ _ _ hpadded, not_not]
    exact ⟨.inl rfl, by decide⟩
  · exact ((horder stateMap (by decide) cutWords).2 _ _ (List.reverse_perm _)).1

end Catalog

end BoothLink
