import BoothLink.Console.Session
import BoothLink.Proofs.Discovery.Classified
import BoothLink.Proofs.Discovery.Heard

/-!
# What a search finds

A search waits again and again, for as long as is left each time. It comes to reading one datagram after the
other: the first that announces the arrival of another device with the name asked for ends it, and so does
the deadline. Whatever else arrives is read and makes no difference.

* `Profile.Hails`: a datagram announces the arrival of another device; `Profile.sight_eq_present_iff`.
* `Profile.sought?`: the device for which a datagram ends a search; `Profile.sought?_eq_some_iff`.
* `Profile.search_inTime`, `Profile.search_late`: one datagram; `Profile.search_noise`: one that is not sought.
* `Profile.Searches`, `Profile.searches`: all that a search can come to; `Profile.search_sought`: the same
  without all that is not sought.
* **`Console.Session.findDevice_first`**: the device that is found on the console.
-/

namespace BoothLink

namespace Profile

variable {p : Profile} {d : Datagram} {wanted : Option String} {device : Device} {deadline now : Nat}
  {a : Arrival} {as rest : List Arrival}

/-! ## What is sought -/

/-- As far as it is received, a datagram begins with the announcement of the arrival of another device. -/
def Hails (p : Profile) (d : Datagram) (device : Device) : Prop :=
  ∃ (a : Announcement) (b : Octets), a.action = .howdy ∧ (Message.discovery a).encode = .ok b ∧
    b <+: d.octets.take receiveLimit ∧ device = Device.ofAnnouncement d.source a ∧ device.identity ≠ p.identity

/-- A datagram announces the arrival of another device with the name that is asked for, if one is. -/
def Seeks (p : Profile) (wanted : Option String) (d : Datagram) (device : Device) : Prop :=
  p.Hails d device ∧ ∀ name ∈ wanted, name = device.identity.name

theorem encode_discovery_iff {a : Announcement} {b : Octets} : (Message.discovery a).encode = .ok b ↔
    ∃ x, Field.writeAll a.fields = .ok x ∧ b = discoveryMagic ++ x := by
  constructor
  · intro h
    obtain ⟨body, hbody, ⟨hframe, -⟩ | ⟨-, rfl⟩⟩ := Message.encode_inv h
    · cases hframe
    · exact (Message.body_inv hbody).2
  · rintro ⟨x, hx, rfl⟩
    exact Message.encode_of_writeAll rfl rfl hx

theorem present_ofAction_iff {action : Action} : .present = Presence.ofAction action ↔ action = .howdy := by
  cases action <;> simp [Presence.ofAction]

/-- **A device is found in a datagram exactly if this announces its arrival.** -/
theorem sight_eq_present_iff : p.sight d = .ok (some (device, .present)) ↔ p.Hails d device := by
  rw [sight, classify_iff_verdict]
  constructor
  · generalize hr : Except.ok (some (device, Presence.present)) = r
    intro h
    cases h with
    | tooShort | unknown | fault | action => cases hr
    | @announcement a x rest hd hx hfits =>
      split at hr
      · cases hr
      · next hother =>
        obtain ⟨rfl, haction⟩ : device = Device.ofAnnouncement d.source a ∧
            Presence.present = .ofAction a.action := by simpa using hr
        refine ⟨a, discoveryMagic ++ x, present_ofAction_iff.mp haction,
          encode_discovery_iff.mpr ⟨x, hx, rfl⟩, ?_, rfl, hother⟩
        rw [hd, ← List.append_assoc]
        exact List.prefix_append _ _
  · rintro ⟨a, b, haction, hb, ⟨rest, hrest⟩, rfl, hother⟩
    obtain ⟨x, hx, rfl⟩ := encode_discovery_iff.mp hb
    rw [List.append_assoc] at hrest
    have hsize : x.length ≤ frameLimit := by
      have hle : (d.octets.take receiveLimit).length ≤ receiveLimit := List.length_take_le _ _
      rw [← hrest, List.length_append, List.length_append] at hle
      unfold receiveLimit frameLimit at *
      omega
    have hverdict : p.Verdict d.source (d.octets.take receiveLimit) _ :=
      .announcement hrest.symm hx (Field.fits_of_writeAll hx hsize)
    rwa [if_neg hother, haction] at hverdict

/-- What is wrong with a datagram does not keep others from being received. -/
theorem isClosed_of_sight {e : DiscoveryError} (h : p.sight d = .error e) : e.isClosed = false := by
  rw [sight, classify_iff_verdict] at h
  cases h <;> rfl

/-- The device for which a datagram ends a search. -/
def sought? (p : Profile) (wanted : Option String) (d : Datagram) : Option Device :=
  match p.sight d with
  | .ok (some found) => if matching wanted found then some found.1 else none
  | _ => none

theorem matching_present_iff :
    matching wanted (device, .present) = true ↔ ∀ name ∈ wanted, name = device.identity.name := by
  cases wanted <;> simp [matching]

/-- **A datagram ends a search exactly for the device whose arrival it announces**, if it has the name. -/
theorem sought?_eq_some_iff : p.sought? wanted d = some device ↔ p.Seeks wanted d device := by
  rw [Seeks, ← sight_eq_present_iff, sought?]
  constructor
  · intro h
    split at h
    · next found hfound =>
      obtain ⟨found, presence⟩ := found
      split at h
      · next hmatching =>
        cases h
        cases presence with
        | present => exact ⟨hfound, matching_present_iff.mp hmatching⟩
        | leaving => simp [matching] at hmatching
      · cases h
    · cases h
  · rintro ⟨hfound, hnames⟩
    rw [hfound]
    exact if_pos (matching_present_iff.mpr hnames)

theorem sought?_eq_none_iff : p.sought? wanted d = none ↔ ∀ device, ¬ p.Seeks wanted d device := by
  simp only [Option.eq_none_iff_forall_ne_some, ne_eq, sought?_eq_some_iff]

/-- The arrivals that are sought. -/
def sought (p : Profile) (wanted : Option String) (as : List Arrival) : List Arrival :=
  as.filter fun a => (p.sought? wanted a.datagram).isSome

/-! ## One datagram -/

/-- A search that has time left goes by what is heard. -/
theorem search_left (hleft : now < deadline) : p.search wanted deadline now as =
    match (p.hear deadline now as).result with
    | none => p.search wanted deadline (p.hear deadline now as).now (p.hear deadline now as).rest
    | some (.ok found) =>
      if matching wanted found then
        ⟨.ok (some found.1), (p.hear deadline now as).now, (p.hear deadline now as).rest⟩
      else p.search wanted deadline (p.hear deadline now as).now (p.hear deadline now as).rest
    | some (.error e) =>
      if e.isClosed then ⟨.error e, (p.hear deadline now as).now, (p.hear deadline now as).rest⟩
      else p.search wanted deadline (p.hear deadline now as).now (p.hear deadline now as).rest := by
  have hsame : now + (deadline - now) = deadline := Nat.add_sub_of_le (Nat.le_of_lt hleft)
  have hround := search.eq_def p wanted deadline now as
  rw [dif_pos hleft] at hround
  simp only [hsame] at hround
  refine hround.trans ?_
  cases (p.hear deadline now as).result with
  | none => rfl
  | some r => cases r <;> rfl

theorem search_over (hover : deadline ≤ now) : p.search wanted deadline now as = ⟨.ok none, now, as⟩ := by
  rw [search, dif_neg (Nat.not_lt.mpr hover)]

/-- **A search reads one datagram after the other**: it ends with the one that is sought, and goes on from any
other. -/
theorem search_inTime (htime : max now a.time < deadline) : p.search wanted deadline now (a :: rest) =
    match p.sought? wanted a.datagram with
    | some found => ⟨.ok (some found), max now a.time, rest⟩
    | none => p.search wanted deadline (max now a.time) rest := by
  have hin : a.InTime deadline now := .inr (by omega)
  rw [search_left (by omega), hear_inTime hin, answer?, sought?]
  cases hsight : p.sight a.datagram with
  | error e => simp [heard?, isClosed_of_sight hsight]
  | ok found =>
    cases found with
    | none => exact (search_left htime).symm
    | some found =>
      simp only [heard?]
      split <;> rfl

/-- What is not received in time is left, and the search ends at the deadline. -/
theorem search_late (hlate : ∀ a ∈ as, deadline ≤ max now a.time) :
    p.search wanted deadline now as = ⟨.ok none, max now deadline, as⟩ := by
  by_cases hleft : now < deadline
  · have hout : ∀ a ∈ as, ¬ a.InTime deadline now := by
      intro a ha hin
      have hle := hlate a ha
      unfold Arrival.InTime at hin
      omega
    rw [search_left hleft, hear_late hout, search_over (le_max_right now deadline)]
  · rw [search_over (Nat.not_lt.mp hleft), max_eq_left (Nat.not_lt.mp hleft)]

/-- **A datagram that is not sought makes no difference to a search**, neither to what is found nor to when the
search ends. -/
theorem search_noise (htime : max now a.time < deadline) (hnoise : p.sought? wanted a.datagram = none)
    (hlater : ∀ b ∈ rest, a.time ≤ b.time) :
    p.search wanted deadline now (a :: rest) = p.search wanted deadline now rest := by
  have hin : a.InTime deadline now := .inr (by omega)
  rw [search_inTime htime, hnoise]
  show p.search wanted deadline (max now a.time) rest = _
  rw [search_left htime, hear_later hin hlater]
  exact (search_left (by omega)).symm

/-! ## All datagrams -/

/-- All that a search can come to. -/
inductive Searches (p : Profile) (wanted : Option String) (deadline now : Nat) (as : List Arrival) :
    Searched → Prop where
  /-- The first datagram that is sought is received before the deadline. -/
  | found {before : List Arrival} {a : Arrival} {later : List Arrival} {device : Device} :
    as = before ++ a :: later → (∀ x ∈ before, p.sought? wanted x.datagram = none) →
      p.sought? wanted a.datagram = some device → max now a.time < deadline →
        Searches p wanted deadline now as ⟨.ok (some device), max now a.time, later⟩
  /-- No datagram that is sought is received before the deadline. -/
  | lapsed {before rest : List Arrival} : as = before ++ rest →
    (∀ x ∈ before, p.sought? wanted x.datagram = none) → (∀ a ∈ rest, deadline ≤ max now a.time) →
      Searches p wanted deadline now as ⟨.ok none, max now deadline, rest⟩

/-- What arrives after the deadline is received after it, and so is all behind it. -/
theorem late_of_inOrder (horder : InOrder (a :: rest)) (hlate : deadline ≤ max now a.time) :
    ∀ b ∈ a :: rest, deadline ≤ max now b.time :=
  fun b hb => hlate.trans (max_le_max_left now (horder.le_of_mem b hb))

/-- **A search among arrivals that come in order.** -/
theorem searches (p : Profile) (wanted : Option String) (deadline now : Nat) (horder : InOrder as) :
    p.Searches wanted deadline now as (p.search wanted deadline now as) := by
  induction as with
  | nil =>
    rw [search_late (by simp)]
    exact .lapsed (List.nil_append _).symm (by simp) (by simp)
  | cons a rest ih =>
    obtain ⟨hlater, hrest⟩ := List.pairwise_cons.mp horder
    by_cases htime : max now a.time < deadline
    · cases hsought : p.sought? wanted a.datagram with
      | some device =>
        rw [search_inTime htime, hsought]
        exact .found (List.nil_append _).symm (by simp) hsought htime
      | none =>
        rw [search_noise htime hsought hlater]
        have hsearches := ih hrest
        generalize p.search wanted deadline now rest = searched at hsearches ⊢
        cases hsearches with
        | found hsplit hbefore hfound hin =>
          exact .found (congrArg (a :: ·) hsplit) (List.forall_mem_cons.mpr ⟨hsought, hbefore⟩) hfound hin
        | lapsed hsplit hbefore hlate =>
          exact .lapsed (congrArg (a :: ·) hsplit) (List.forall_mem_cons.mpr ⟨hsought, hbefore⟩) hlate
    · have hlate := late_of_inOrder horder (Nat.not_lt.mp htime)
      rw [search_late hlate]
      exact .lapsed (List.nil_append _).symm (by simp) hlate

/-- The first datagram that is sought is one only. -/
theorem find?_of_split {before later : List Arrival} (hsplit : as = before ++ a :: later)
    (hbefore : ∀ x ∈ before, p.sought? wanted x.datagram = none)
    (ha : p.sought? wanted a.datagram = some device) :
    as.find? (fun a => (p.sought? wanted a.datagram).isSome) = some a := by
  rw [List.find?_eq_some_iff_append]
  exact ⟨by simp [ha], before, later, hsplit, fun x hx => by simp [hbefore x hx]⟩

variable {searched : Searched}

/-- **A search finds the first device that is sought and received in time.** -/
theorem Searches.result_eq_some_iff (h : p.Searches wanted deadline now as searched) :
    searched.result = .ok (some device) ↔ ∃ before a later, as = before ++ a :: later ∧
      (∀ x ∈ before, p.sought? wanted x.datagram = none) ∧
        p.sought? wanted a.datagram = some device ∧ max now a.time < deadline := by
  constructor
  · intro hresult
    cases h with
    | found hsplit hbefore hfound hin =>
      cases hresult
      exact ⟨_, _, _, hsplit, hbefore, hfound, hin⟩
    | lapsed => cases hresult
  · rintro ⟨before, a, later, hsplit, hbefore, ha, hin⟩
    cases h with
    | found hsplit' hbefore' ha' =>
      have hfirst := find?_of_split hsplit hbefore ha
      rw [find?_of_split hsplit' hbefore' ha'] at hfirst
      cases hfirst
      rw [ha] at ha'
      cases ha'
      rfl
    | @lapsed before' rest hsplit' hbefore' hlate =>
      have hmem : a ∈ before' ++ rest := by
        rw [← hsplit', hsplit]
        exact List.mem_append_right before List.mem_cons_self
      obtain hnone | hrest := List.mem_append.mp hmem
      · rw [hbefore' a hnone] at ha
        cases ha
      · exact absurd hin (Nat.not_lt.mpr (hlate a hrest))

/-- **A search is in vain just if nothing that is sought is received in time.** -/
theorem Searches.result_eq_none_iff (h : p.Searches wanted deadline now as searched) :
    searched.result = .ok none ↔
      ∀ a ∈ as, max now a.time < deadline → p.sought? wanted a.datagram = none := by
  cases h with
  | @found before a later device hsplit hbefore hfound hin =>
    refine iff_of_false nofun fun hnone => ?_
    have ha := hnone a (hsplit ▸ List.mem_append_right before List.mem_cons_self) hin
    rw [hfound] at ha
    cases ha
  | lapsed hsplit hbefore hlate =>
    refine iff_of_true rfl fun a ha hin => ?_
    obtain hnone | hrest := List.mem_append.mp (hsplit ▸ ha)
    · exact hbefore a hnone
    · exact absurd hin (Nat.not_lt.mpr (hlate a hrest))

/-- **Whatever is not sought, however much of it, makes no difference to a search.** -/
theorem search_sought (horder : InOrder as) : p.search wanted deadline now (p.sought wanted as) =
    { p.search wanted deadline now as with
      rest := p.sought wanted (p.search wanted deadline now as).rest } := by
  induction as with
  | nil =>
    rw [sought, List.filter_nil, search_late (by simp)]
    rfl
  | cons a rest ih =>
    obtain ⟨hlater, hrest⟩ := List.pairwise_cons.mp horder
    by_cases htime : max now a.time < deadline
    · cases hsought : p.sought? wanted a.datagram with
      | none =>
        rw [sought, List.filter_cons_of_neg (by simp [hsought]), search_noise htime hsought hlater]
        exact ih hrest
      | some device =>
        rw [sought, List.filter_cons_of_pos (by simp [hsought]), search_inTime htime, search_inTime htime,
          hsought]
        rfl
    · have hlate := late_of_inOrder horder (Nat.not_lt.mp htime)
      have hsought : ∀ b ∈ p.sought wanted (a :: rest), deadline ≤ max now b.time :=
        fun b hb => hlate b (List.mem_filter.mp hb).1
      rw [search_late hlate, search_late hsought]

/-- Searches that differ in what is not sought come to the same, at the same time. -/
theorem search_eq_of_sought {bs : List Arrival} (horder : InOrder as) (horder' : InOrder bs)
    (hsame : p.sought wanted as = p.sought wanted bs) :
    (p.search wanted deadline now as).result = (p.search wanted deadline now bs).result ∧
      (p.search wanted deadline now as).now = (p.search wanted deadline now bs).now := by
  have hbare : p.search wanted deadline now (p.sought wanted as) = _ := search_sought horder
  rw [hsame, search_sought horder'] at hbare
  exact ⟨(congrArg Searched.result hbare).symm, (congrArg Searched.now hbare).symm⟩

end Profile

/-! ## Searches on the console -/

namespace Console.Session

variable {scene : Scene} {s : Settings} {l : Listener} {wanted : Option String} {session : Session}

/-- A listener that is open and silent begins to announce itself. -/
theorem announceEvery_ok (hopen : l.closed = false) (hsilent : l.announcer = none) (interval : Nat) :
    (l.announceEvery (max interval 1)).1 = .ok () := by
  have hticks : Ticker.every? (max interval 1) l.now = some ⟨_, _, _⟩ := dif_pos (by omega)
  simp [Listener.announceEvery, hopen, hsilent, hticks]

theorem profile_announceEvery (l : Listener) (interval : Nat) :
    (l.announceEvery interval).2.profile = l.profile :=
  (Listener.move_keeps (m := .announceEvery interval) trivial).1

/-- What a search comes to on the console. -/
def answer (timeout : Nat) (searched : Profile.Searched) : Except Failure Device :=
  match searched.result with
  | .ok (some d) => .ok d
  | .ok none => .error (.told (notFoundText timeout))
  | .error e => .error (.told e.message)

theorem answer_eq_ok_iff {timeout : Nat} {searched : Profile.Searched} {device : Device} :
    answer timeout searched = .ok device ↔ searched.result = .ok (some device) := by
  unfold answer
  rcases searched.result with e | _ | d <;> simp

theorem answer_eq_notFound_iff {p : Profile} {deadline now timeout : Nat} {as : List Arrival}
    {searched : Profile.Searched} (h : p.Searches wanted deadline now as searched) :
    answer timeout searched = .error (.told (notFoundText timeout)) ↔ searched.result = .ok none := by
  cases h <;> simp [answer]

theorem run_findDevice (hopen : l.closed = false) (hsilent : l.announcer = none) :
    (findDevice scene s l wanted).run session =
      (answer s.discovery.timeout.toNat
          (l.profile.search wanted s.discovery.timeout.toNat 0 scene.arrivals),
        { session with printed := lookingText wanted :: session.printed }) := by
  have hannounced := announceEvery_ok hopen hsilent s.discovery.announceInterval.toNat
  have hprofile := profile_announceEvery l (max s.discovery.announceInterval.toNat 1)
  unfold findDevice
  generalize l.announceEvery (max s.discovery.announceInterval.toNat 1) = announced at hannounced hprofile
  obtain ⟨_, l'⟩ := announced
  cases hannounced
  have hsame : l'.profile = l.profile := hprofile
  simp only [hsame, answer]
  generalize (l.profile.search wanted s.discovery.timeout.toNat 0 scene.arrivals).result = result
  rcases result with e | _ | d <;> rfl

/-- **On the console the device is found that is the first to announce its arrival in time.** That is the first
datagram, in the order of their arrival, that announces the arrival of another device with the name asked for,
if it is received before the deadline; else the search fails at the deadline. Nothing else that arrives ends the
search or makes it last longer, and without it everything is the same. -/
theorem findDevice_first (horder : InOrder scene.arrivals) (hopen : l.closed = false)
    (hsilent : l.announcer = none) (s : Settings) (wanted : Option String) (session : Session) :
    let timeout := s.discovery.timeout.toNat
    let found := ((findDevice scene s l wanted).run session).1
    let searched := l.profile.search wanted timeout 0 scene.arrivals
    (∀ device, found = .ok device ↔ ∃ before a later, scene.arrivals = before ++ a :: later ∧
      (∀ x ∈ before, ∀ e, ¬ l.profile.Seeks wanted x.datagram e) ∧
        l.profile.Seeks wanted a.datagram device ∧ a.time < timeout) ∧
    (found = .error (.told (notFoundText timeout)) ↔
      ∀ a ∈ scene.arrivals, a.time < timeout → ∀ e, ¬ l.profile.Seeks wanted a.datagram e) ∧
    l.profile.Searches wanted timeout 0 scene.arrivals searched ∧
    ∀ scene' : Scene, InOrder scene'.arrivals →
      l.profile.sought wanted scene'.arrivals = l.profile.sought wanted scene.arrivals →
        (findDevice scene' s l wanted).run session = (findDevice scene s l wanted).run session ∧
          (l.profile.search wanted timeout 0 scene'.arrivals).now = searched.now := by
  intro timeout found searched
  have hfound : found = answer timeout searched := congrArg Prod.fst (run_findDevice hopen hsilent)
  have hsearches : l.profile.Searches wanted timeout 0 scene.arrivals searched :=
    l.profile.searches wanted timeout 0 horder
  refine ⟨fun device => ?_, ?_, hsearches, fun scene' horder' hsame => ?_⟩
  · rw [hfound, answer_eq_ok_iff, hsearches.result_eq_some_iff]
    simp only [Nat.zero_max, Profile.sought?_eq_none_iff, Profile.sought?_eq_some_iff]
  · rw [hfound, answer_eq_notFound_iff hsearches, hsearches.result_eq_none_iff]
    simp only [Nat.zero_max, Profile.sought?_eq_none_iff]
  · obtain ⟨hresult, hnow⟩ :
        (l.profile.search wanted timeout 0 scene'.arrivals).result = searched.result ∧
          (l.profile.search wanted timeout 0 scene'.arrivals).now = searched.now :=
      Profile.search_eq_of_sought horder' horder hsame
    refine ⟨?_, hnow⟩
    rw [run_findDevice hopen hsilent, run_findDevice hopen hsilent, answer, hresult]
    rfl

/-- Behind noise a laptop is found in the last millisecond, and not any later. -/
theorem findDevice_first_laptop : ∃ b, (Profile.laptop.message .howdy).encode = .ok b ∧ ∀ source session,
    let s : Settings := { Settings.default "desk" with discovery := { timeout := 50 } }
    let scene (time : Nat) : Scene :=
      { hostName := "desk", fresh := .zero, arrivals := [⟨10, ⟨source, [0]⟩⟩, ⟨time, ⟨source, b⟩⟩] }
    Listener.desk.closed = false ∧ Listener.desk.announcer = none ∧
      InOrder (scene 49).arrivals ∧ InOrder (scene 50).arrivals ∧
      ((findDevice (scene 49) s Listener.desk (some "𝄞")).run session).1 =
        .ok ⟨source, 40001, Profile.laptop.identity⟩ ∧
      ((findDevice (scene 50) s Listener.desk (some "𝄞")).run session).1 =
        .error (.told (notFoundText 50)) := by
  have hb : ∃ b, (Profile.laptop.message .howdy).encode = .ok b ∧ b.length ≤ receiveLimit :=
    ⟨_, rfl, by decide⟩
  obtain ⟨b, hb, hfit⟩ := hb
  refine ⟨b, hb, fun source session => ?_⟩
  intro s scene
  have hopen : Listener.desk.closed = false := rfl
  have hsilent : Listener.desk.announcer = none := rfl
  have horder : ∀ time, 10 ≤ time → InOrder (scene time).arrivals := by simp [InOrder, scene]
  have hnoise : ∀ e, ¬ Listener.desk.profile.Seeks (some "𝄞") ⟨source, [0]⟩ e :=
    Profile.sought?_eq_none_iff.mp rfl
  have hintime : 49 < s.discovery.timeout.toNat := by decide
  have hlate : ¬ 50 < s.discovery.timeout.toNat := by decide
  have hother : Profile.laptop.identity ≠ Listener.desk.profile.identity := by decide
  have hseeks : Listener.desk.profile.Seeks (some "𝄞") ⟨source, b⟩ ⟨source, 40001, Profile.laptop.identity⟩ := by
    refine ⟨⟨Profile.laptop.announcement .howdy, b, rfl, hb, ?_, rfl, hother⟩, ?_⟩
    · rw [List.take_of_length_le hfit]
    · rintro _ ⟨⟩
      rfl
  have hfirst := (findDevice_first (horder 49 (by decide)) hopen hsilent s (some "𝄞") session).1
  have hnone := (findDevice_first (horder 50 (by decide)) hopen hsilent s (some "𝄞") session).2.1
  refine ⟨hopen, hsilent, horder 49 (by decide), horder 50 (by decide), (hfirst _).mpr ?_, hnone.mpr ?_⟩
  · refine ⟨[⟨10, ⟨source, [0]⟩⟩], ⟨49, ⟨source, b⟩⟩, [], rfl, ?_, hseeks, hintime⟩
    simpa using hnoise
  · intro a ha hin
    have hcases : a = ⟨10, ⟨source, [0]⟩⟩ ∨ a = ⟨50, ⟨source, b⟩⟩ := by simpa [scene] using ha
    obtain rfl | rfl := hcases
    · exact hnoise
    · exact absurd hin hlate

end Console.Session

end BoothLink
