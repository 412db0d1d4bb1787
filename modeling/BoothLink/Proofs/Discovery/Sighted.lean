import BoothLink.Discovery.Listener
import BoothLink.Proofs.Catalog.Recovery
import BoothLink.Proofs.Message.Limits

/-!
# Announcements as others hear them

What one participant announces of itself, another one hears as it was said: the device at the address from
which it came, with the port and the identity that were announced, arriving or leaving. The participant
itself, and whoever has the very same identity, hears nothing in it. Octets behind an announcement are
passed over. Of a datagram that is longer than what is received, either the whole announcement is there or
too little for any device.

* `Identity.Fits`: an identity that can be announced so that it is heard.
* `Profile.exists_message`: its announcements can be written.
* `Profile.classify_message`, `Profile.classify_beginning`: an announcement and a part of one.
* **`Profile.announcement_heard`**: what every participant makes of every announcement.
-/

namespace BoothLink

/-- Each text of the identity is short enough to be read again. -/
def Identity.Fits (i : Identity) : Prop :=
  ∀ s ∈ [i.name, i.softwareName, i.softwareVersion], (Utf16.encode s.toList).length ≤ frameLimit

instance (i : Identity) : Decidable i.Fits :=
  inferInstanceAs (Decidable (∀ s ∈ [i.name, i.softwareName, i.softwareVersion],
    (Utf16.encode s.toList).length ≤ frameLimit))

namespace Profile

variable {a : Profile} {action : Action} {b : Octets}

/-- What an action says of its sender, as others take it. -/
def heardAs : Action → Presence
  | .howdy => .present
  | .exit => .leaving

theorem textsFit_message (h : a.identity.Fits) (action : Action) : (a.message action).TextsFit := by
  obtain ⟨hname, hsoftware, hversion⟩ : (Utf16.encode a.identity.name.toList).length ≤ frameLimit ∧
      (Utf16.encode a.identity.softwareName.toList).length ≤ frameLimit ∧
        (Utf16.encode a.identity.softwareVersion.toList).length ≤ frameLimit := by
    simpa [Identity.Fits] using h
  have haction : Field.Fits (.utf16 action.wireText) := by cases action <;> decide
  simp only [Message.TextsFit, message, Message.fields, announcement, Announcement.fields,
    List.forall_mem_cons]
  exact ⟨trivial, hname, haction, hsoftware, hversion, trivial, List.forall_mem_nil _⟩

/-- **An identity that fits can be announced.** -/
theorem exists_message (h : a.identity.Fits) (action : Action) :
    ∃ b, (a.message action).encode = .ok b :=
  Message.exists_encode rfl rfl (textsFit_message h action)

theorem carries_message (h : a.identity.Fits) (action : Action) :
    Catalog.discovery.Carries (a.message action) :=
  ⟨List.mem_singleton.mpr rfl, exists_message h action, textsFit_message h action⟩

theorem discovery_clear : Catalog.discovery.Clear :=
  Catalog.transports_clear _ (by decide)

theorem four_le_length (hb : (a.message action).encode = .ok b) : 4 ≤ b.length :=
  (Message.words_encode hb).1

/-- What a participant makes of an announcement, with any octets behind it. -/
theorem classify_message (h : a.identity.Fits) (hb : (a.message action).encode = .ok b) (p : Profile)
    (junk : Octets) (source : Address) : p.classify (b ++ junk) source =
      .ok (if a.identity = p.identity then none
        else some (⟨source, a.port, a.identity⟩, heardAs action)) := by
  have hlong : ¬ (b ++ junk).length < 4 := by
    have := four_le_length hb
    rw [List.length_append]
    omega
  have hdecode : Catalog.discovery.decodeDatagram (b ++ junk) = .ok (a.message action) :=
    Catalog.decodeDatagram_encode discovery_clear (carries_message h action) hb junk
  rw [classify, if_neg hlong, hdecode]
  cases action <;> rfl

/-- A part of an announcement says nothing. -/
theorem classify_beginning (h : a.identity.Fits) (hb : (a.message action).encode = .ok b) {t : Octets}
    (ht : t <+: b) (hne : t ≠ b) (hlong : 4 ≤ t.length) (p : Profile) (source : Address) :
    p.classify t source = .error (.protocol .truncated) := by
  have hdecode : Catalog.discovery.decodeDatagram t = .error .truncated :=
    Catalog.decodeDatagram_beginning discovery_clear (carries_message h action) hb ht hne
  rw [classify, if_neg (Nat.not_lt.mpr hlong), hdecode]
  rfl

/-- What is received of an announcement is all of it, or says nothing. -/
theorem sight_message (h : a.identity.Fits) (hb : (a.message action).encode = .ok b) (p : Profile)
    (junk : Octets) (source : Address) : p.sight ⟨source, b ++ junk⟩ =
      if b.length ≤ receiveLimit then p.classify (b ++ junk) source
      else .error (.protocol .truncated) := by
  rw [sight]
  by_cases hfit : b.length ≤ receiveLimit
  · have htake : (b ++ junk).take receiveLimit = b ++ junk.take (receiveLimit - b.length) := by
      rw [List.take_append, List.take_of_length_le hfit]
    rw [if_pos hfit, htake, classify_message h hb, classify_message h hb]
  · have hlong : receiveLimit < b.length := Nat.not_le.mp hfit
    have hsize : (b.take receiveLimit).length = receiveLimit := by
      rw [List.length_take]
      omega
    rw [if_neg hfit, List.take_append_of_le_length (Nat.le_of_lt hlong)]
    refine classify_beginning h hb ⟨_, List.take_append_drop _ _⟩ ?_ ?_ p source
    · intro hall
      rw [hall] at hsize
      omega
    · rw [hsize]
      decide

/-- **What is announced is heard by everyone but those with the same identity**: from wherever it comes
and with whatever behind it, as the device that was announced, arriving or leaving. Of a datagram that is
cut when it is received the same is heard, or that it was cut. -/
theorem announcement_heard {a : Profile} (h : a.identity.Fits) (action : Action) :
    ∃ b, (a.message action).encode = .ok b ∧
      ∀ (p : Profile) (junk : Octets) (source : Address),
        (a.identity = p.identity → p.classify (b ++ junk) source = .ok none) ∧
        (a.identity ≠ p.identity → p.classify (b ++ junk) source =
          .ok (some (⟨source, a.port, a.identity⟩, heardAs action))) ∧
        p.sight ⟨source, b ++ junk⟩ =
          if b.length ≤ receiveLimit then p.classify (b ++ junk) source
          else .error (.protocol .truncated) := by
  obtain ⟨b, hb⟩ := exists_message h action
  refine ⟨b, hb, fun p junk source => ⟨fun hsame => ?_, fun hother => ?_, sight_message h hb p junk source⟩⟩
  · rw [classify_message h hb, if_pos hsame]
  · rw [classify_message h hb, if_neg hother]

/-- A participant whose name has a character outside the first plane. -/
def laptop : Profile := ⟨⟨.zero, "𝄞", "booth", "1.0"⟩, 40001⟩

/-- Its departure, with an octet behind it: another version of the same software hears of it, and it does
not hear itself. -/
theorem announcement_heard_laptop : laptop.identity.Fits ∧
    ∃ b, (laptop.message .exit).encode = .ok b ∧ ∀ source,
      (Profile.mk ⟨.zero, "𝄞", "booth", "1.1"⟩ 40001).classify (b ++ [0]) source =
          .ok (some (⟨source, 40001, laptop.identity⟩, .leaving)) ∧
        laptop.classify (b ++ [0]) source = .ok none := by
  have hfits : laptop.identity.Fits := by decide
  obtain ⟨b, hb, hheard⟩ := announcement_heard hfits .exit
  refine ⟨hfits, b, hb, fun source => ⟨?_, ?_⟩⟩
  · exact (hheard ⟨⟨.zero, "𝄞", "booth", "1.1"⟩, 40001⟩ [0] source).2.1 (by decide)
  · exact (hheard laptop [0] source).1 rfl

end Profile

end BoothLink
