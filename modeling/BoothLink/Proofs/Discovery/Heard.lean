import BoothLink.Discovery.Search
import BoothLink.Proofs.Discovery.ScanEvents
import Mathlib.Data.List.ReduceOption

/-!
# What is heard by asking again and again

Whoever asks for the next announcement gets an answer to each datagram that is not our own announcement, in
the order of their arrival and each once: the device that it is about, or what is wrong with it. A call reads
up to the datagram that it answers, and leaves what is behind. Our own announcements are read and not told,
and do not change how long a call waits.

* `Profile.answer?`: what is heard of a datagram.
* `Profile.hear_own`: our own announcement makes no difference to a wait; `Profile.Waits`, `Profile.waits`:
  all that a wait can come to; `Profile.hear_others`: the same without our own announcements.
* `Arriving`, `Profile.calling`: one call after the other while datagrams arrive;
  `Profile.results_append_rest`: no answer is lost, and none comes twice.
* `Listener.Discovers`, `Listener.discovers`: the same for a queue; `Listener.Queues`,
  `Listener.Queues.after`: a listener that does not scan, whatever else happens to it.
* **`Listener.discover_enumerates`**: what calls give.
-/

namespace BoothLink

/-- What is heard, if it is anything. -/
def heard? : Except DiscoveryError (Option Sighting) → Option (Except DiscoveryError Sighting)
  | .ok none => none
  | .ok (some found) => some (.ok found)
  | .error e => some (.error e)

theorem heard?_map_some (r : Except DiscoveryError Sighting) : heard? (r.map some) = some r := by
  cases r <;> rfl

theorem heard?_eq_none_iff {r : Except DiscoveryError (Option Sighting)} :
    heard? r = none ↔ r = .ok none := by
  cases r with
  | error e => exact iff_of_false nofun nofun
  | ok found => cases found <;> simp [heard?]

/-! ## One wait -/

/-- Whether an arrival is read by someone who waits from now on until a deadline: it is there already, or
arrives before the deadline. -/
def Arrival.InTime (deadline now : Nat) (a : Arrival) : Prop := a.time ≤ now ∨ a.time < deadline

/-- Arrivals in the order of their times. -/
def InOrder (as : List Arrival) : Prop := as.Pairwise (·.time ≤ ·.time)

theorem InOrder.le_of_mem {a : Arrival} {rest : List Arrival} (horder : InOrder (a :: rest)) :
    ∀ b ∈ a :: rest, a.time ≤ b.time :=
  List.forall_mem_cons.mpr ⟨le_rfl, (List.pairwise_cons.mp horder).1⟩

/-- What arrives after the time is over is not in time either. -/
theorem InOrder.late {deadline now : Nat} {a : Arrival} {rest : List Arrival} (horder : InOrder (a :: rest))
    (hlate : ¬ a.InTime deadline now) : ∀ b ∈ a :: rest, ¬ b.InTime deadline now := by
  intro b hb hin
  have hle := horder.le_of_mem b hb
  unfold Arrival.InTime at hlate hin
  omega

namespace Profile

/-- What is heard of a datagram; nothing if it is our own announcement. -/
def answer? (p : Profile) (d : Datagram) : Option (Except DiscoveryError Sighting) := heard? (p.sight d)

/-- What is heard of datagrams. -/
def answers (p : Profile) (ds : List Datagram) : List (Except DiscoveryError Sighting) :=
  ds.filterMap p.answer?

/-- A datagram is our own announcement. -/
def Own (p : Profile) (d : Datagram) : Prop := p.sight d = .ok none

variable {p : Profile} {d : Datagram} {ds es : List Datagram} {deadline now : Nat} {a : Arrival}
  {as rest : List Arrival} {r : Except DiscoveryError Sighting}

theorem answer?_eq_none_iff : p.answer? d = none ↔ p.Own d := heard?_eq_none_iff

theorem answers_append : p.answers (ds ++ es) = p.answers ds ++ p.answers es := List.filterMap_append

theorem answers_eq_nil_iff : p.answers ds = [] ↔ ∀ d ∈ ds, p.Own d := by
  simp only [answers, List.filterMap_eq_nil_iff, answer?_eq_none_iff]

/-- A wait reads what is in time, and goes on if it is our own announcement. -/
theorem hear_inTime (htime : a.InTime deadline now) : p.hear deadline now (a :: rest) =
    match p.answer? a.datagram with
    | none => p.hear deadline (max now a.time) rest
    | some r => ⟨some r, max now a.time, rest⟩ := by
  rw [hear, if_pos (show a.time ≤ now ∨ a.time < deadline from htime), answer?]
  cases p.sight a.datagram with
  | error e => rfl
  | ok found => cases found <;> rfl

/-- A wait leaves what is not in time. -/
theorem hear_late (hlate : ∀ a ∈ as, ¬ a.InTime deadline now) :
    p.hear deadline now as = ⟨none, max now deadline, as⟩ := by
  cases as with
  | nil => rfl
  | cons a rest =>
    have hhead : ¬ (a.time ≤ now ∨ a.time < deadline) := hlate a List.mem_cons_self
    rw [hear, if_neg hhead]

/-- To begin a wait at an arrival in time comes to the same for all that arrives after it. -/
theorem hear_later (htime : a.InTime deadline now) (hlater : ∀ b ∈ rest, a.time ≤ b.time) :
    p.hear deadline (max now a.time) rest = p.hear deadline now rest := by
  unfold Arrival.InTime at htime
  cases rest with
  | nil =>
    rw [hear, hear]
    congr 1
    omega
  | cons b rest =>
    have hb := hlater b List.mem_cons_self
    have hsame : max (max now a.time) b.time = max now b.time := by omega
    have hover : max (max now a.time) deadline = max now deadline := by omega
    have hiff : (b.time ≤ max now a.time ∨ b.time < deadline) ↔ (b.time ≤ now ∨ b.time < deadline) := by
      omega
    rw [hear, hear, hsame, hover]
    simp only [hiff]

/-- **Our own announcement makes no difference to a wait.** -/
theorem hear_own (htime : a.InTime deadline now) (hown : p.Own a.datagram)
    (hlater : ∀ b ∈ rest, a.time ≤ b.time) : p.hear deadline now (a :: rest) = p.hear deadline now rest := by
  rw [hear_inTime htime, answer?_eq_none_iff.mpr hown]
  exact hear_later htime hlater

/-- All that a wait can come to. -/
inductive Waits (p : Profile) (deadline now : Nat) (as : List Arrival) : Heard → Prop where
  /-- Behind our own announcements there is a datagram in time that is none: it is answered, and what is
  behind it is left. -/
  | answered {own : List Arrival} {a : Arrival} {rest : List Arrival} {r : Except DiscoveryError Sighting} :
    as = own ++ a :: rest → (∀ x ∈ own, x.InTime deadline now ∧ p.Own x.datagram) → a.InTime deadline now →
      p.answer? a.datagram = some r → Waits p deadline now as ⟨some r, max now a.time, rest⟩
  /-- All that is in time are our own announcements: the wait ends at the deadline. -/
  | lapsed {own rest : List Arrival} : as = own ++ rest →
    (∀ x ∈ own, x.InTime deadline now ∧ p.Own x.datagram) → (∀ a ∈ rest, ¬ a.InTime deadline now) →
      Waits p deadline now as ⟨none, max now deadline, rest⟩

/-- **A wait for arrivals that come in order.** -/
theorem waits (p : Profile) (deadline now : Nat) (horder : InOrder as) : p.Waits deadline now as (p.hear deadline now as) := by
  induction as with
  | nil => exact .lapsed (List.nil_append _).symm (by simp) (by simp)
  | cons a rest ih =>
    obtain ⟨hlater, hrest⟩ := List.pairwise_cons.mp horder
    by_cases htime : a.InTime deadline now
    · cases hanswer : p.answer? a.datagram with
      | some r =>
        rw [hear_inTime htime, hanswer]
        exact .answered (List.nil_append _).symm (by simp) htime hanswer
      | none =>
        have hown := answer?_eq_none_iff.mp hanswer
        rw [hear_own htime hown hlater]
        have hcons : ∀ {own : List Arrival}, (∀ x ∈ own, x.InTime deadline now ∧ p.Own x.datagram) →
            ∀ x ∈ a :: own, x.InTime deadline now ∧ p.Own x.datagram :=
          fun howns => List.forall_mem_cons.mpr ⟨⟨htime, hown⟩, howns⟩
        have hwaits := ih hrest
        generalize p.hear deadline now rest = heard at hwaits ⊢
        cases hwaits with
        | answered hsplit howns hin hr => exact .answered (congrArg (a :: ·) hsplit) (hcons howns) hin hr
        | lapsed hsplit howns hlate => exact .lapsed (congrArg (a :: ·) hsplit) (hcons howns) hlate
    · have hlate := horder.late htime
      rw [hear_late hlate]
      exact .lapsed (List.nil_append _).symm (by simp) hlate

/-- The arrivals that are not our own announcements. -/
def others (p : Profile) (as : List Arrival) : List Arrival :=
  as.filter fun a => (p.answer? a.datagram).isSome

/-- **Our own announcements, however many, make no difference to a wait.** -/
theorem hear_others (horder : InOrder as) : p.hear deadline now (p.others as) =
    { p.hear deadline now as with rest := p.others (p.hear deadline now as).rest } := by
  induction as with
  | nil => rfl
  | cons a rest ih =>
    obtain ⟨hlater, hrest⟩ := List.pairwise_cons.mp horder
    by_cases htime : a.InTime deadline now
    · cases hanswer : p.answer? a.datagram with
      | none =>
        rw [others, List.filter_cons_of_neg (by simp [hanswer]),
          hear_own htime (answer?_eq_none_iff.mp hanswer) hlater]
        exact ih hrest
      | some r =>
        rw [others, List.filter_cons_of_pos (by simp [hanswer]), hear_inTime htime, hear_inTime htime,
          hanswer]
        rfl
    · have hlate := horder.late htime
      have hothers : ∀ b ∈ p.others (a :: rest), ¬ b.InTime deadline now :=
        fun b hb => hlate b (List.mem_filter.mp hb).1
      rw [hear_late hlate, hear_late hothers]

variable {heard : Heard}

/-- A wait tells the first answer, and no answer is lost. -/
theorem Waits.answers_eq (h : p.Waits deadline now as heard) :
    heard.result.toList ++ p.answers (heard.rest.map (·.datagram)) = p.answers (as.map (·.datagram)) := by
  have hquiet : ∀ {own : List Arrival}, (∀ x ∈ own, x.InTime deadline now ∧ p.Own x.datagram) →
      p.answers (own.map (·.datagram)) = [] := by
    intro own howns
    rw [answers_eq_nil_iff, List.forall_mem_map]
    exact fun x hx => (howns x hx).2
  cases h with
  | answered hsplit howns hin hr =>
    rw [hsplit, List.map_append, answers_append, hquiet howns, List.map_cons, answers, answers,
      List.filterMap_cons_some hr]
    rfl
  | lapsed hsplit howns hlate =>
    rw [hsplit, List.map_append, answers_append, hquiet howns]
    rfl

/-- **A wait is in vain just if all that arrives in time is our own.** -/
theorem Waits.result_eq_none_iff (h : p.Waits deadline now as heard) :
    heard.result = none ↔ ∀ a ∈ as, a.InTime deadline now → p.Own a.datagram := by
  cases h with
  | @answered own a rest r hsplit howns hin hr =>
    refine iff_of_false nofun fun hall => ?_
    have hown := hall a (hsplit ▸ List.mem_append_right own List.mem_cons_self) hin
    rw [answer?_eq_none_iff.mpr hown] at hr
    cases hr
  | lapsed hsplit howns hlate =>
    refine iff_of_true rfl fun a ha hin => ?_
    obtain hown | hrest := List.mem_append.mp (hsplit ▸ ha)
    · exact (howns a hown).2
    · exact absurd hin (hlate a hrest)

/-- **A wait that outlasts the arrivals gives the first answer.** -/
theorem Waits.result_eq_head? (h : p.Waits deadline now as heard) (hlong : ∀ a ∈ as, a.time < deadline) :
    heard.result = (p.answers (as.map (·.datagram))).head? := by
  have hanswers := h.answers_eq
  cases hresult : heard.result with
  | some r =>
    rw [hresult] at hanswers
    rw [← hanswers]
    rfl
  | none =>
    have hown := h.result_eq_none_iff.mp hresult
    rw [answers_eq_nil_iff.mpr (List.forall_mem_map.mpr fun a ha => hown a ha (.inr (hlong a ha)))]
    rfl

theorem Waits.inOrder (h : p.Waits deadline now as heard) (horder : InOrder as) : InOrder heard.rest := by
  cases h with
  | answered hsplit => exact (List.pairwise_cons.mp (List.pairwise_append.mp (hsplit ▸ horder)).2.1).2
  | lapsed hsplit => exact (List.pairwise_append.mp (hsplit ▸ horder)).2.1

end Profile

/-! ## Calls while datagrams arrive -/

/-- The time, and the arrivals that have not been read. -/
structure Arriving where
  now : Nat
  arrivals : List Arrival

/-- A call for the next announcement: how long after the one before it has returned, and for how long. One
without a timeout is as good as one whose timeout outlasts the arrivals. -/
structure Ask where
  delay : Nat
  timeout : Nat

namespace Arriving

/-- When a call is made. -/
def start (i : Arriving) (c : Ask) : Nat := i.now + c.delay

def deadline (i : Arriving) (c : Ask) : Nat := i.start c + c.timeout

/-- What comes of a call. -/
def hear (i : Arriving) (p : Profile) (c : Ask) : Profile.Heard :=
  p.hear (i.deadline c) (i.start c) i.arrivals

end Arriving

namespace Profile

/-- One call after the other. -/
def calling (p : Profile) : Machine Arriving Ask :=
  ⟨fun _ _ => True, fun i c => ⟨(i.hear p c).now, (i.hear p c).rest⟩⟩

/-- What calls give; nothing for one that waits in vain. -/
def results (p : Profile) (i : Arriving) (cs : List Ask) : List (Option (Except DiscoveryError Sighting)) :=
  p.calling.along (fun i c => [(i.hear p c).result]) i cs

variable {p : Profile} {i : Arriving}

theorem calling_inOrder (horder : InOrder i.arrivals) (cs : List Ask) :
    InOrder (p.calling.after i cs).arrivals := by
  induction cs generalizing i with
  | nil => exact horder
  | cons c cs ih => exact ih ((p.waits _ _ horder).inOrder horder)

/-- **No answer is lost, and none comes twice or in another's place.** -/
theorem results_append_rest (horder : InOrder i.arrivals) (cs : List Ask) :
    (p.results i cs).reduceOption ++ p.answers ((p.calling.after i cs).arrivals.map (·.datagram)) =
      p.answers (i.arrivals.map (·.datagram)) := by
  induction cs generalizing i with
  | nil => rfl
  | cons c cs ih =>
    have hwaits : p.Waits (i.deadline c) (i.start c) i.arrivals (i.hear p c) := p.waits _ _ horder
    have hrest := ih (i := p.calling.next i c) (hwaits.inOrder horder)
    have hfirst : (p.results i (c :: cs)).reduceOption =
        (i.hear p c).result.toList ++ (p.results (p.calling.next i c) cs).reduceOption := by
      rw [results, Machine.along, List.reduceOption_append]
      cases (i.hear p c).result <;> rfl
    rw [hfirst, List.append_assoc, Machine.after_cons, hrest]
    exact hwaits.answers_eq

end Profile

/-! ## A scan that has ended -/

namespace Scan

variable {s : Scan}

theorem push_stopped (h : s.running = false) : s.push.running = false := by
  unfold push
  split
  · exact h
  · split_ifs
    · rfl
    · exact h
    · exact h

/-- A scan that has ended reads nothing. -/
theorem drain_stopped (p : Profile) (h : s.running = false) (ds : List Datagram) :
    s.drain p ds = (s.push, ds) := by
  cases ds with
  | nil => rfl
  | cons d ds => simp only [drain, push_stopped h, Bool.not_false, Bool.true_or, if_true]

theorem receive_running (s : Scan) : s.receive.2.running = s.running := by
  unfold receive
  split
  · rfl
  · split <;> rfl

end Scan

/-! ## The queue of a listener -/

namespace Listener

variable {l : Listener} {p : Profile} {timeout : Nat}

/-- All that a call can come to. -/
inductive Discovers (l : Listener) (timeout : Nat) :
    Except DiscoveryError (Option Sighting) × Listener → Prop where
  /-- Behind our own announcements there is a datagram that is none: it is answered, and what is behind it
  is left. -/
  | answered {own rest : List Datagram} {d : Datagram} {r : Except DiscoveryError Sighting} :
    l.incoming = own ++ d :: rest → (∀ x ∈ own, l.profile.Own x) → l.profile.answer? d = some r →
      Discovers l timeout (r.map some, { l with incoming := rest })
  /-- There are but our own announcements: they are read, and the time passes. -/
  | lapsed : (∀ d ∈ l.incoming, l.profile.Own d) →
      Discovers l timeout (.ok none, { l with incoming := [] }.wait timeout)

/-- **A call for the next announcement.** -/
theorem discovers (l : Listener) (timeout : Nat) : l.Discovers timeout (l.discover timeout) := by
  have horder : InOrder (l.incoming.map fun d => ⟨l.now, d⟩) := by
    rw [InOrder, List.pairwise_map]
    exact List.pairwise_of_forall fun _ _ => le_rfl
  have hincoming : (l.incoming.map fun d => (⟨l.now, d⟩ : Arrival)).map (·.datagram) = l.incoming := by
    rw [List.map_map]
    exact List.map_id _
  have hthere : ∀ a ∈ l.incoming.map fun d => (⟨l.now, d⟩ : Arrival), a.InTime (l.now + timeout) l.now := by
    rw [List.forall_mem_map]
    exact fun _ _ => .inl le_rfl
  have hwaits := l.profile.waits (l.now + timeout) l.now horder
  rw [discover]
  generalize l.profile.hear (l.now + timeout) l.now (l.incoming.map fun d => ⟨l.now, d⟩) = heard at hwaits ⊢
  generalize (l.incoming.map fun d => (⟨l.now, d⟩ : Arrival)) = as at hwaits hincoming hthere
  cases hwaits with
  | @answered own a rest r hsplit howns hin hr =>
    have hqueue : l.incoming = own.map (·.datagram) ++ a.datagram :: rest.map (·.datagram) := by
      rw [← hincoming, hsplit, List.map_append, List.map_cons]
    exact .answered hqueue (List.forall_mem_map.mpr fun x hx => (howns x hx).2) hr
  | @lapsed own rest hsplit howns hlate =>
    obtain rfl : rest = [] := by
      refine List.eq_nil_iff_forall_not_mem.mpr fun a ha => hlate a ha (hthere a ?_)
      rw [hsplit]
      exact List.mem_append_right own ha
    refine .lapsed ?_
    rw [← hincoming, hsplit, List.append_nil]
    exact List.forall_mem_map.mpr fun x hx => (howns x hx).2

variable {out : Except DiscoveryError (Option Sighting) × Listener}

/-- What is left of the listener after a call. -/
theorem Discovers.keeps (h : l.Discovers timeout out) :
    out.2.profile = l.profile ∧ out.2.scan = l.scan := by
  cases h with
  | answered => exact ⟨rfl, rfl⟩
  | lapsed =>
    obtain ⟨hprofile, hscan, -⟩ := moveTo_keeps { l with incoming := [] } (l.now + timeout) Ticker.runs
    exact ⟨hprofile, hscan⟩

/-- A call gives the first answer, and leaves those behind it. -/
theorem Discovers.answers (h : l.Discovers timeout out) :
    (∃ r, l.profile.answers l.incoming = r :: l.profile.answers out.2.incoming ∧ out.1 = r.map some) ∨
      l.profile.answers l.incoming = [] ∧ l.profile.answers out.2.incoming = [] ∧ out.1 = .ok none := by
  cases h with
  | answered hsplit howns hr =>
    refine .inl ⟨_, ?_, rfl⟩
    rw [hsplit, Profile.answers_append, Profile.answers_eq_nil_iff.mpr howns, List.nil_append,
      Profile.answers, List.filterMap_cons_some hr]
    rfl
  | lapsed howns =>
    refine .inr ⟨Profile.answers_eq_nil_iff.mpr howns, ?_, rfl⟩
    rw [wait, (moveTo_keeps _ _ _).2.2]
    rfl

/-- What calls with these timeouts give, one after the other. -/
def asked (l : Listener) : List Nat → List (Except DiscoveryError (Option Sighting))
  | [] => []
  | timeout :: timeouts => (l.discover timeout).1 :: asked (l.discover timeout).2 timeouts

/-- **Calls give one answer after the other, and nothing when none is left.** -/
theorem asked_eq (l : Listener) (timeouts : List Nat) : l.asked timeouts =
    ((l.profile.answers l.incoming).map (·.map some)).take timeouts.length ++
      List.replicate (timeouts.length - (l.profile.answers l.incoming).length) (.ok none) := by
  induction timeouts generalizing l with
  | nil => simp [asked]
  | cons timeout timeouts ih =>
    have hdiscovers := l.discovers timeout
    rw [asked, ih, hdiscovers.keeps.1]
    obtain ⟨r, hanswers, hresult⟩ | ⟨hanswers, hrest, hresult⟩ := hdiscovers.answers
    · rw [hresult, hanswers]
      simp
    · rw [hresult, hanswers, hrest]
      simp [List.replicate_succ]

/-! ## A listener that does not scan -/

/-- All moves but the start of a scan, which would read the datagrams itself. -/
def Move.LeavesQueue : Move → Prop
  | .startScan _ => False
  | _ => True

/-- What is heard in a move. -/
def discovered? (l : Listener) : Move → List (Except DiscoveryError Sighting)
  | .discover timeout => (heard? (l.discover timeout).1).toList
  | _ => []

/-- What is heard in some moves. -/
def discovered (l : Listener) (ms : List Move) : List (Except DiscoveryError Sighting) :=
  Machine.along ⟨fun _ m => m.LeavesQueue, move⟩ discovered? l ms

/-- Between any two moves: no scan runs, and of what is heard of all datagrams some has been told and the rest
is in the queue. -/
structure Queues (p : Profile) (all : List Datagram) (got : List (Except DiscoveryError Sighting))
    (l : Listener) : Prop where
  profile_eq : l.profile = p
  stopped : ∀ s, l.scan = some s → s.running = false
  answers_eq : got ++ p.answers l.incoming = p.answers all

variable {all : List Datagram} {got : List (Except DiscoveryError Sighting)} {m : Move} {ms : List Move}

theorem Queues.of_same {l' : Listener} (h : l.Queues p all got) (hprofile : l'.profile = l.profile)
    (hscan : l'.scan = l.scan) (hincoming : l'.incoming = l.incoming) : l'.Queues p all got :=
  ⟨hprofile.trans h.profile_eq, hscan ▸ h.stopped, hincoming ▸ h.answers_eq⟩

/-- Another scan that has ended makes no difference. -/
theorem Queues.of_scan (h : l.Queues p all got) {f : Scan → Scan}
    (hf : ∀ s, s.running = false → (f s).running = false) :
    Queues p all got { l with scan := l.scan.map f } := by
  refine ⟨h.profile_eq, fun s hs => ?_, h.answers_eq⟩
  obtain ⟨s', hs', rfl⟩ := Option.map_eq_some_iff.mp hs
  exact hf s' (h.stopped s' hs')

theorem Queues.settle (h : l.Queues p all got) : l.settle.Queues p all got := by
  unfold Listener.settle
  split
  · exact h
  · next s hs =>
    have hstopped := h.stopped s hs
    rw [Scan.drain_stopped l.profile hstopped]
    refine ⟨h.profile_eq, ?_, h.answers_eq⟩
    rintro _ ⟨⟩
    exact Scan.push_stopped hstopped

theorem Queues.nextEvent (h : l.Queues p all got) : l.nextEvent.2.Queues p all got := by
  unfold Listener.nextEvent
  split
  · exact h
  · next s hs =>
    have hstopped : s.receive.2.running = false := s.receive_running.trans (h.stopped s hs)
    show Queues p all got { l with scan := some s.receive.2 }.settle
    refine Queues.settle ⟨h.profile_eq, ?_, h.answers_eq⟩
    rintro _ ⟨⟩
    exact hstopped

theorem Queues.close (h : l.Queues p all got) : l.close.2.Queues p all got := by
  have hended := h.of_scan (f := Scan.stop) fun _ _ => rfl
  cases hclosed : l.closed with
  | true =>
    rw [close_refused hclosed]
    exact h
  | false =>
    cases hrecurs : l.announcer.isSome with
    | true =>
      rw [close_recurring hclosed hrecurs]
      exact hended.of_same rfl rfl rfl
    | false =>
      rw [close_silent hclosed hrecurs]
      exact hended.of_same rfl rfl rfl

theorem Queues.discover (h : l.Queues p all got) (timeout : Nat) :
    (l.discover timeout).2.Queues p all (got ++ (heard? (l.discover timeout).1).toList) := by
  have hdiscovers := l.discovers timeout
  obtain ⟨hprofile, hscan⟩ := hdiscovers.keeps
  refine ⟨hprofile.trans h.profile_eq, hscan ▸ h.stopped, ?_⟩
  rw [← h.answers_eq, ← h.profile_eq]
  obtain ⟨r, hanswers, hresult⟩ | ⟨hanswers, hrest, hresult⟩ := hdiscovers.answers
  · rw [hresult, heard?_map_some, hanswers, Option.toList_some, List.append_assoc, List.singleton_append]
  · rw [hresult, hanswers, hrest]
    simp [heard?]

/-- A move of a listener that does not scan. -/
theorem Queues.move (h : l.Queues p all got) (hm : m.LeavesQueue) :
    (l.move m).Queues p (all ++ arrived [m]) (got ++ discovered? l m) := by
  -- Most moves bring neither a datagram nor an answer.
  have hother : (l.move m).Queues p all got → arrived [m] = [] → discovered? l m = [] →
      (l.move m).Queues p (all ++ arrived [m]) (got ++ discovered? l m) := by
    intro hqueues harrived hdiscovered
    rwa [harrived, hdiscovered, List.append_nil, List.append_nil]
  have hsame : m.Announces → (l.move m).Queues p all got := by
    intro hannounces
    obtain ⟨hprofile, hscan, hincoming⟩ := move_keeps hannounces
    exact h.of_same hprofile hscan hincoming
  cases m with
  | announce | unannounce | announceEvery _ | advance _ | wait _ => exact hother (hsame trivial) rfl rfl
  | deliver d =>
    have hnothing : discovered? l (.deliver d) = [] := rfl
    rw [hnothing, List.append_nil]
    refine Queues.settle ⟨h.profile_eq, h.stopped, ?_⟩
    rw [Profile.answers_append, ← List.append_assoc, h.answers_eq]
    exact Profile.answers_append.symm
  | discover timeout =>
    have harrived : arrived [.discover timeout] = [] := rfl
    rw [harrived, List.append_nil]
    exact h.discover timeout
  | startScan capacity => cases hm
  | nextEvent => exact hother h.nextEvent rfl rfl
  | dropEvents => exact hother (h.of_scan (f := Scan.abandon) fun _ hs => hs).settle rfl rfl
  | close => exact hother h.close rfl rfl

/-- **What has been told and what is in the queue is what is heard of all that has arrived.** -/
theorem Queues.after (h : l.Queues p all got) (hms : ∀ m ∈ ms, m.LeavesQueue) :
    (l.after ms).Queues p (all ++ arrived ms) (got ++ discovered l ms) := by
  induction ms using List.reverseRecOn with
  | nil =>
    rw [arrived, discovered, Machine.along, List.filterMap_nil, List.append_nil, List.append_nil]
    exact h
  | append_singleton ms m ih =>
    obtain ⟨hbefore, hlast⟩ := List.forall_mem_append.mp hms
    have hnext := (ih hbefore).move (hlast m (List.mem_singleton_self m))
    rw [after_snoc, arrived, List.filterMap_append, discovered, Machine.along_snoc, ← List.append_assoc,
      ← List.append_assoc]
    exact hnext

/-! ## Calls -/

/-- **Calls enumerate what arrives.** Those for a queue give one answer to each datagram that is not our own
announcement, in order, and then nothing; each reads up to the one that it answers and leaves the rest. So it
is whatever else happens to the listener, as long as no scan reads in its place. While datagrams arrive the
same holds of calls made at any times: a call is in vain just if all that arrives before its deadline is our
own, a call that outlasts the arrivals gives the first answer, and our own announcements, however many, change
neither what it gives nor when it ends. -/
theorem discover_enumerates (l : Listener) :
    (∀ timeouts, l.asked timeouts =
      ((l.profile.answers l.incoming).map (·.map some)).take timeouts.length ++
        List.replicate (timeouts.length - (l.profile.answers l.incoming).length) (.ok none)) ∧
    (∀ timeout, l.Discovers timeout (l.discover timeout)) ∧
    ((∀ s, l.scan = some s → s.running = false) → ∀ ms, (∀ m ∈ ms, m.LeavesQueue) →
      l.discovered ms ++ l.profile.answers (l.after ms).incoming =
        l.profile.answers (l.incoming ++ arrived ms)) ∧
    ∀ i : Arriving, InOrder i.arrivals → ∀ cs,
      let later := l.profile.calling.after i cs
      (l.profile.results i cs).reduceOption ++ l.profile.answers (later.arrivals.map (·.datagram)) =
        l.profile.answers (i.arrivals.map (·.datagram)) ∧
      ∀ c,
        let heard := later.hear l.profile c
        l.profile.Waits (later.deadline c) (later.start c) later.arrivals heard ∧
        (heard.result = none ↔ ∀ a ∈ later.arrivals, a.InTime (later.deadline c) (later.start c) →
          l.profile.Own a.datagram) ∧
        ((∀ a ∈ later.arrivals, a.time < later.deadline c) →
          heard.result = (l.profile.answers (later.arrivals.map (·.datagram))).head?) ∧
        l.profile.hear (later.deadline c) (later.start c) (l.profile.others later.arrivals) =
          { heard with rest := l.profile.others heard.rest } := by
  refine ⟨l.asked_eq, l.discovers, fun hstopped ms hms => ?_, fun i horder cs => ⟨?_, fun c => ?_⟩⟩
  · have hqueues : l.Queues l.profile l.incoming [] := ⟨rfl, hstopped, rfl⟩
    exact (hqueues.after hms).answers_eq
  · exact Profile.results_append_rest horder cs
  · have hlater := Profile.calling_inOrder (p := l.profile) horder cs
    have hwaits := l.profile.waits ((l.profile.calling.after i cs).deadline c)
      ((l.profile.calling.after i cs).start c) hlater
    exact ⟨hwaits, hwaits.result_eq_none_iff, hwaits.result_eq_head?, Profile.hear_others hlater⟩

/-- Of our own announcement and noise behind it only the noise is heard, and not before it is there. -/
theorem discover_enumerates_echo : ∃ b, (desk.profile.message .howdy).encode = .ok b ∧ ∀ source,
    let echo : Datagram := ⟨source, b⟩
    let noise : Datagram := ⟨source, [0]⟩
    let arrivals : List Arrival := [⟨10, echo⟩, ⟨20, echo⟩, ⟨60, noise⟩]
    desk.scan = none ∧ InOrder arrivals ∧
      discovered desk [.deliver echo, .deliver noise, .discover 50] ++
        desk.profile.answers (desk.after [.deliver echo, .deliver noise, .discover 50]).incoming =
          [.error (.tooShort 1)] ∧
      (Arriving.hear ⟨0, arrivals⟩ desk.profile ⟨0, 50⟩).result = none ∧
      (Arriving.hear ⟨0, arrivals⟩ desk.profile ⟨0, 70⟩).result = some (.error (.tooShort 1)) := by
  have hb : ∃ b, (desk.profile.message .howdy).encode = .ok b ∧ b.length ≤ receiveLimit :=
    ⟨_, rfl, by decide⟩
  obtain ⟨b, hb, hfit⟩ := hb
  refine ⟨b, hb, fun source => ?_⟩
  intro echo noise arrivals
  have hecho : desk.profile.Own echo := by
    have hheard := Profile.sight_message (by decide) hb desk.profile [] source
    rwa [List.append_nil, if_pos hfit, ← List.append_nil b, Profile.classify_message (by decide) hb,
      if_pos rfl, List.append_nil] at hheard
  have hnoise : desk.profile.answer? noise = some (.error (.tooShort 1)) := rfl
  have hqueue : desk.profile.answers [echo, noise] = [.error (.tooShort 1)] := by
    rw [Profile.answers, List.filterMap_cons_none (Profile.answer?_eq_none_iff.mpr hecho),
      List.filterMap_cons_some hnoise, List.filterMap_nil]
  have horder : InOrder arrivals := by simp [InOrder, arrivals]
  obtain ⟨-, -, hmoves, hcalls⟩ := discover_enumerates desk
  obtain ⟨-, hwaits⟩ := hcalls ⟨0, arrivals⟩ horder []
  refine ⟨rfl, horder, ?_, ?_, ?_⟩
  · exact (hmoves nofun _ (by simp [Move.LeavesQueue])).trans hqueue
  · refine (hwaits ⟨0, 50⟩).2.1.mpr fun a ha hin => ?_
    have hcases : a = ⟨10, echo⟩ ∨ a = ⟨20, echo⟩ ∨ a = ⟨60, noise⟩ := by simpa [arrivals] using ha
    obtain rfl | rfl | rfl := hcases
    · exact hecho
    · exact hecho
    · have hlate : ¬ (60 ≤ 0 ∨ 60 < 50) := by decide
      exact absurd hin hlate
  · refine ((hwaits ⟨0, 70⟩).2.2.1 (by simp [arrivals, Arriving.deadline, Arriving.start])).trans ?_
    show (desk.profile.answers [echo, echo, noise]).head? = _
    rw [Profile.answers, List.filterMap_cons_none (Profile.answer?_eq_none_iff.mpr hecho)]
    exact congrArg List.head? hqueue

end Listener

end BoothLink
