import Fipwave.IsolationAttestation
import Fipwave.WindowLimit

/-!
# What a responder promises

At most six calls that start within a minute are answered, no challenge is
answered twice within two minutes, and a snapshot that fails gives back the
reservation of its own call. The last of these needs that the reservation
made last belongs to the failing call, and the other two follow from it.
-/

namespace Fipwave.AttestationLimits

open ByteWords TransitionRun WindowLimit IsolationAttestation

section Calls

/-- Start of a call. -/
def timeOf (calls : List Call) (index : ℕ) : ℚ := (calls[index]?.map Call.time).getD 0

/-- Challenge of a call. -/
def challengeOf (calls : List Call) (index : ℕ) : Bytes :=
  (calls[index]?.map Call.challenge).getD []

/-- A call that made a reservation and did not give it back. -/
def holds : CallStatus → Bool
  | .waiting | .oversize | .attested _ => true
  | .refused _ | .snapshotFailed _ => false

/-- A call that succeeded. -/
def succeeded : CallStatus → Bool
  | .attested _ => true
  | _ => false

/-- Calls with a reservation. -/
def holders (calls : List Call) : Finset ℕ :=
  (Finset.range calls.length).filter (fun i => calls[i]?.any (fun call => holds call.status))

/-- Calls that succeeded. -/
def successes (calls : List Call) : Finset ℕ :=
  (Finset.range calls.length).filter (fun i => calls[i]?.any (fun call => succeeded call.status))

variable {calls : List Call} {call : Call} {index i : ℕ}

/-- A call that holds a reservation is one of those made, and waits or has succeeded. -/
theorem mem_holders :
    i ∈ holders calls ↔ ∃ call, calls[i]? = some call ∧ holds call.status = true := by
  unfold holders
  rw [Finset.mem_filter, Finset.mem_range]
  constructor
  · rintro ⟨hlt, hany⟩
    rw [List.getElem?_eq_getElem hlt, Option.any_some] at hany
    exact ⟨_, List.getElem?_eq_getElem hlt, hany⟩
  · rintro ⟨call, hcall, hholds⟩
    obtain ⟨hlt, -⟩ := List.getElem?_eq_some_iff.mp hcall
    rw [hcall]
    exact ⟨hlt, hholds⟩

/-- A call that has succeeded holds its reservation. -/
theorem successes_subset : successes calls ⊆ holders calls := by
  intro i hi
  obtain ⟨hlt, hany⟩ := Finset.mem_filter.mp hi
  refine Finset.mem_filter.mpr ⟨hlt, ?_⟩
  cases hcall : calls[i]? with
  | none =>
    rw [hcall] at hany
    cases hany
  | some call =>
    rw [hcall, Option.any_some] at hany
    rw [Option.any_some]
    cases hstatus : call.status with
    | attested response => rfl
    | _ =>
      rw [hstatus] at hany
      cases hany

/-- The calls are numbered from the first one on. -/
theorem lt_of_mem_holders (h : i ∈ holders calls) : i < calls.length :=
  Finset.mem_range.mp (Finset.mem_filter.mp h).1

/-- A new call leaves the earlier ones where they are. -/
theorem getElem?_append_call (h : i < calls.length) : (calls ++ [call])[i]? = calls[i]? :=
  List.getElem?_append_left h

/-- A new call leaves the times of the earlier ones. -/
theorem timeOf_append (h : i < calls.length) : timeOf (calls ++ [call]) i = timeOf calls i := by
  unfold timeOf
  rw [getElem?_append_call h]

/-- A new call leaves the challenges of the earlier ones. -/
theorem challengeOf_append (h : i < calls.length) :
    challengeOf (calls ++ [call]) i = challengeOf calls i := by
  unfold challengeOf
  rw [getElem?_append_call h]

theorem timeOf_last : timeOf (calls ++ [call]) calls.length = call.time := by
  simp [timeOf]

theorem challengeOf_last : challengeOf (calls ++ [call]) calls.length = call.challenge := by
  simp [challengeOf]

/-- A new call with a reservation joins the others. -/
theorem holders_append_holding (h : holds call.status = true) :
    holders (calls ++ [call]) = insert calls.length (holders calls) := by
  ext i
  rw [Finset.mem_insert, mem_holders, mem_holders]
  rcases Nat.lt_trichotomy i calls.length with hlt | rfl | hgt
  · have hne : i ≠ calls.length := by omega
    rw [getElem?_append_call hlt]
    constructor
    · exact .inr
    · intro hmem
      exact hmem.resolve_left hne
  · constructor
    · intro _
      exact .inl rfl
    · intro _
      exact ⟨call, by simp, h⟩
  · have hnone : (calls ++ [call])[i]? = none := by
      rw [List.getElem?_eq_none_iff, List.length_append]
      exact hgt
    have hnone' : calls[i]? = none := List.getElem?_eq_none_iff.mpr hgt.le
    have hne : i ≠ calls.length := by omega
    rw [hnone, hnone']
    simp [hne]

/-- A call without a reservation changes nothing. -/
theorem holders_append_other (h : holds call.status = false) :
    holders (calls ++ [call]) = holders calls := by
  ext i
  rw [mem_holders, mem_holders]
  rcases Nat.lt_trichotomy i calls.length with hlt | rfl | hgt
  · rw [getElem?_append_call hlt]
  · have hnone : calls[calls.length]? = none := List.getElem?_eq_none_iff.mpr le_rfl
    rw [hnone]
    simp [h]
  · have hnone : (calls ++ [call])[i]? = none := by
      rw [List.getElem?_eq_none_iff, List.length_append]
      exact hgt
    have hnone' : calls[i]? = none := List.getElem?_eq_none_iff.mpr hgt.le
    rw [hnone, hnone']

variable {status : CallStatus}

/-- A call whose status changes keeps its time and its challenge. -/
theorem getElem?_set_status (hcall : calls[index]? = some call) (i : ℕ) :
    (calls.set index { call with status })[i]? =
      if i = index then some { call with status } else calls[i]? := by
  obtain ⟨hlt, -⟩ := List.getElem?_eq_some_iff.mp hcall
  rw [List.getElem?_set]
  by_cases hsame : index = i
  · subst hsame
    simp [hlt]
  · have hother : ¬i = index := fun h => hsame h.symm
    rw [if_neg hsame, if_neg hother]

/-- A call that ends began when it began. -/
theorem timeOf_set (hcall : calls[index]? = some call) (i : ℕ) :
    timeOf (calls.set index { call with status }) i = timeOf calls i := by
  unfold timeOf
  rw [getElem?_set_status hcall]
  split
  · next hsame =>
    rw [hsame, hcall]
    rfl
  · rfl

/-- A call that ends had the challenge it had. -/
theorem challengeOf_set (hcall : calls[index]? = some call) (i : ℕ) :
    challengeOf (calls.set index { call with status }) i = challengeOf calls i := by
  unfold challengeOf
  rw [getElem?_set_status hcall]
  split
  · next hsame =>
    rw [hsame, hcall]
    rfl
  · rfl

/-- A call that answers or gives its reservation back. -/
theorem mem_holders_set (hcall : calls[index]? = some call) :
    i ∈ holders (calls.set index { call with status }) ↔
      if i = index then holds status = true else i ∈ holders calls := by
  rw [mem_holders, getElem?_set_status hcall]
  split
  · simp
  · rw [mem_holders]

/-- What is not earlier than the calls was not earlier before one of them settled. -/
theorem times_before_set (hcall : calls[index]? = some call) {now : ℚ}
    (h : ∀ after ∈ calls.set index { call with status }, after.time ≤ now) :
    ∀ before ∈ calls, before.time ≤ now := by
  intro before hbefore
  obtain ⟨i, hi⟩ := List.mem_iff_getElem?.mp hbefore
  have hafter : (calls.set index { call with status })[i]? =
      if i = index then some { call with status } else calls[i]? := getElem?_set_status hcall i
  split at hafter
  · next hsame =>
    rw [hsame, hcall] at hi
    cases hi
    have htime := h _ (List.mem_of_getElem? hafter)
    exact htime
  · rw [hi] at hafter
    exact h _ (List.mem_of_getElem? hafter)

end Calls

section Invariant

/-- Every reservation and every entry was made by a call of its own. -/
structure Booked (s : Responder) : Prop where
  /-- No call has two reservations. -/
  requestCalls : (s.requests.map Reservation.call).Nodup
  /-- A reservation has the time of its call. -/
  requestKnown : ∀ reservation ∈ s.requests, reservation.call < s.calls.length ∧
    timeOf s.calls reservation.call = reservation.time
  /-- No call has two entries. -/
  replayCalls : (s.replay.map ReplayEntry.call).Nodup
  /-- An entry has the time and the challenge of its call. -/
  replayKnown : ∀ entry ∈ s.replay, entry.call < s.calls.length ∧
    timeOf s.calls entry.call = entry.time ∧ challengeOf s.calls entry.call = entry.challenge

/-- What holds of a responder at a time, if no call took from another. -/
structure Held (now : ℚ) (s : Responder) : Prop where
  /-- Calls with a reservation are limited. -/
  limited : Limited (timeOf s.calls) windowMs maxPerMinute (holders s.calls)
  /-- Their reservations are there, or are old. -/
  reserved : ∀ i ∈ holders s.calls, (∃ reservation ∈ s.requests, reservation.call = i) ∨
    windowMs < now - timeOf s.calls i
  /-- Their entries are there, or are old. -/
  remembered : ∀ i ∈ holders s.calls, (∃ entry ∈ s.replay, entry.call = i) ∨
    replayTtlMs < now - timeOf s.calls i
  /-- Entries belong to calls with a reservation. -/
  replayHolds : ∀ entry ∈ s.replay, entry.call ∈ holders s.calls
  /-- There was a time when all entries were recent. -/
  recent : ∃ latest, (∀ i ∈ holders s.calls, timeOf s.calls i ≤ latest) ∧
    ∀ entry ∈ s.replay, latest - replayTtlMs ≤ entry.time
  /-- Calls with one challenge are far apart. -/
  apart : ∀ i ∈ holders s.calls, ∀ j ∈ holders s.calls, i < j →
    challengeOf s.calls i = challengeOf s.calls j →
    replayTtlMs < timeOf s.calls j - timeOf s.calls i

variable {options : IsolationResponderOptions} {s t : Responder} {now later : ℚ}

/-- What is held at a time is held later, too: the windows only move on. -/
theorem Held.advance (h : Held now s) (hle : now ≤ later) : Held later s := by
  refine ⟨h.limited, fun i hi => ?_, fun i hi => ?_, h.replayHolds, h.recent, h.apart⟩
  · rcases h.reserved i hi with hthere | hold
    · exact .inl hthere
    · exact .inr (by linarith)
  · rcases h.remembered i hi with hthere | hold
    · exact .inl hthere
    · exact .inr (by linarith)

/-- What has expired is dropped. -/
def expired (now : ℚ) (s : Responder) : Responder :=
  { s with
    replay := s.replay.filter (fun entry => !(now - entry.time > replayTtlMs))
    requests := s.requests.dropWhile (fun reservation => now - reservation.time > windowMs) }

/-- The records that are left are still in the order of their times. -/
theorem booked_expired (h : Booked s) : Booked (expired now s) := by
  have hrequests : (expired now s).requests.Sublist s.requests := List.dropWhile_sublist _
  have hreplay : (expired now s).replay.Sublist s.replay := List.filter_sublist
  exact ⟨h.requestCalls.sublist (hrequests.map _),
    fun reservation hmem => h.requestKnown reservation (hrequests.subset hmem),
    h.replayCalls.sublist (hreplay.map _),
    fun entry hmem => h.replayKnown entry (hreplay.subset hmem)⟩

/-- What does not meet the condition is not dropped. -/
theorem mem_dropWhile {α : Type*} {p : α → Bool} {items : List α} {item : α} (hmem : item ∈ items)
    (hp : p item = false) : item ∈ items.dropWhile p := by
  induction items with
  | nil => cases hmem
  | cons head rest ih =>
    rw [List.dropWhile_cons]
    split
    · next hhead =>
      rcases List.mem_cons.mp hmem with rfl | hrest
      · rw [hp] at hhead
        cases hhead
      · exact ih hrest
    · exact hmem

/-- A call of the last minute still has its reservation once the older ones are dropped. -/
theorem held_expired (h : Held now s) (hb : Booked s) : Held now (expired now s) := by
  have hreplay : (expired now s).replay.Sublist s.replay := List.filter_sublist
  refine ⟨h.limited, fun i hi => ?_, fun i hi => ?_,
    fun entry hmem => h.replayHolds entry (hreplay.subset hmem), ?_, h.apart⟩
  · rcases h.reserved i hi with ⟨reservation, hmem, rfl⟩ | hold
    · by_cases hexpired : windowMs < now - reservation.time
      · rw [← (hb.requestKnown reservation hmem).2] at hexpired
        exact .inr hexpired
      · exact .inl ⟨reservation, mem_dropWhile hmem (decide_eq_false hexpired), rfl⟩
    · exact .inr hold
  · rcases h.remembered i hi with ⟨entry, hmem, rfl⟩ | hold
    · by_cases hexpired : replayTtlMs < now - entry.time
      · rw [← (hb.replayKnown entry hmem).2.1] at hexpired
        exact .inr hexpired
      · refine .inl ⟨entry, List.mem_filter.mpr ⟨hmem, ?_⟩, rfl⟩
        simpa using hexpired
    · exact .inr hold
  · obtain ⟨latest, hlatest, hentries⟩ := h.recent
    exact ⟨latest, hlatest, fun entry hmem => hentries entry (hreplay.subset hmem)⟩

/-- Entries that are left are recent. -/
theorem expired_recent {entry : ReplayEntry} (h : entry ∈ (expired now s).replay) :
    now - replayTtlMs ≤ entry.time := by
  have hkept := (List.mem_filter.mp h).2
  simp only [gt_iff_lt, Bool.not_eq_true', decide_eq_false_iff_not, not_lt] at hkept
  linarith

/-- A call that makes no reservation keeps the books as they are. -/
theorem booked_refused (h : Booked s) (call : Call) :
    Booked { s with calls := s.calls ++ [call] } := by
  refine ⟨h.requestCalls, fun reservation hmem => ?_, h.replayCalls, fun entry hmem => ?_⟩
  · obtain ⟨hlt, htime⟩ := h.requestKnown reservation hmem
    dsimp only
    rw [timeOf_append hlt, List.length_append]
    exact ⟨Nat.lt_add_right _ hlt, htime⟩
  · obtain ⟨hlt, htime, hchallenge⟩ := h.replayKnown entry hmem
    dsimp only
    rw [timeOf_append hlt, challengeOf_append hlt, List.length_append]
    exact ⟨Nat.lt_add_right _ hlt, htime, hchallenge⟩

/-- A call that is refused needs no reservation. -/
theorem held_refused (h : Held now s) {call : Call} (hcall : holds call.status = false) :
    Held now { s with calls := s.calls ++ [call] } := by
  have hsame : holders (s.calls ++ [call]) = holders s.calls := holders_append_other hcall
  have htime : ∀ i ∈ holders s.calls, timeOf (s.calls ++ [call]) i = timeOf s.calls i :=
    fun i hi => timeOf_append (lt_of_mem_holders hi)
  have hchallenge : ∀ i ∈ holders s.calls,
      challengeOf (s.calls ++ [call]) i = challengeOf s.calls i :=
    fun i hi => challengeOf_append (lt_of_mem_holders hi)
  refine ⟨?_, fun i hi => ?_, fun i hi => ?_, fun entry hmem => ?_, ?_, fun i hi j hj => ?_⟩
  · dsimp only
    rw [hsame]
    exact h.limited.congr htime
  · dsimp only at hi ⊢
    rw [hsame] at hi
    rw [htime i hi]
    exact h.reserved i hi
  · dsimp only at hi ⊢
    rw [hsame] at hi
    rw [htime i hi]
    exact h.remembered i hi
  · dsimp only
    rw [hsame]
    exact h.replayHolds entry hmem
  · obtain ⟨latest, hlatest, hentries⟩ := h.recent
    refine ⟨latest, fun i hi => ?_, hentries⟩
    dsimp only at hi ⊢
    rw [hsame] at hi
    rw [htime i hi]
    exact hlatest i hi
  · dsimp only at hi hj ⊢
    rw [hsame] at hi hj
    rw [htime i hi, htime j hj, hchallenge i hi, hchallenge j hj]
    exact h.apart i hi j hj

/-- A call that makes its reservation. -/
def accepted (now : ℚ) (challenge : Bytes) (s : Responder) : Responder :=
  { replay := s.replay ++ [⟨challenge, now, s.calls.length⟩]
    requests := s.requests ++ [⟨now, s.calls.length⟩]
    calls := s.calls ++ [⟨now, challenge, .waiting⟩] }

/-- A number that is larger than the others is new. -/
theorem nodup_append_new {α : Type*} {name : α → ℕ} {items : List α} {new : α}
    (hnodup : (items.map name).Nodup) (hlt : ∀ item ∈ items, name item < name new) :
    ((items ++ [new]).map name).Nodup := by
  rw [List.map_append, List.nodup_append]
  refine ⟨hnodup, List.nodup_singleton _, ?_⟩
  intro known hknown added hadded
  obtain ⟨item, hmem, rfl⟩ := List.mem_map.mp hknown
  rw [List.map_singleton, List.mem_singleton] at hadded
  rw [hadded]
  exact (hlt item hmem).ne

/-- A new call is recorded behind all others. -/
theorem booked_accepted (h : Booked s) (challenge : Bytes) : Booked (accepted now challenge s) := by
  have hgrown : Booked { s with calls := s.calls ++ [⟨now, challenge, .waiting⟩] } :=
    booked_refused h _
  have hlast : s.calls.length < (s.calls ++ [(⟨now, challenge, .waiting⟩ : Call)]).length := by
    rw [List.length_append]
    exact Nat.lt_add_one _
  refine ⟨?_, fun reservation hmem => ?_, ?_, fun entry hmem => ?_⟩
  · exact nodup_append_new h.requestCalls
      (fun reservation hmem => (h.requestKnown reservation hmem).1)
  · rcases List.mem_append.mp hmem with hmem | hmem
    · exact hgrown.requestKnown reservation hmem
    · rw [List.mem_singleton.mp hmem]
      exact ⟨hlast, timeOf_last⟩
  · exact nodup_append_new h.replayCalls (fun entry hmem => (h.replayKnown entry hmem).1)
  · rcases List.mem_append.mp hmem with hmem | hmem
    · exact hgrown.replayKnown entry hmem
    · rw [List.mem_singleton.mp hmem]
      exact ⟨hlast, timeOf_last, challengeOf_last⟩

/-- Calls with a reservation that began within the last minute have it in the list. -/
theorem recent_card_le (h : Held now s) :
    ((holders s.calls).filter (fun i => now - windowMs ≤ timeOf s.calls i)).card ≤
      s.requests.length := by
  have hsubset : (holders s.calls).filter (fun i => now - windowMs ≤ timeOf s.calls i) ⊆
      (s.requests.map Reservation.call).toFinset := by
    intro i hi
    obtain ⟨hholds, hrecent⟩ := Finset.mem_filter.mp hi
    rcases h.reserved i hholds with ⟨reservation, hmem, rfl⟩ | hold
    · exact List.mem_toFinset.mpr (List.mem_map_of_mem hmem)
    · linarith
  have hcard := Finset.card_le_card hsubset
  have hlist := List.toFinset_card_le (s.requests.map Reservation.call)
  rw [List.length_map] at hlist
  exact hcard.trans hlist

/-- A new call has a reservation of its own, and its challenge is recorded. Both are the last of
their lists, so the reservations of earlier calls keep their places. -/
theorem held_accepted (h : Held now s) (hb : Booked s) {challenge : Bytes}
    (htimes : ∀ i ∈ holders s.calls, timeOf s.calls i ≤ now)
    (hrecent : ∀ entry ∈ s.replay, now - replayTtlMs ≤ entry.time)
    (hroom : s.requests.length < maxPerMinute)
    (hnew : ∀ entry ∈ s.replay, entry.challenge ≠ challenge) :
    Held now (accepted now challenge s) := by
  have hgrown : holders (accepted now challenge s).calls =
      insert s.calls.length (holders s.calls) := holders_append_holding rfl
  have hlast : timeOf (accepted now challenge s).calls s.calls.length = now := timeOf_last
  have hname : challengeOf (accepted now challenge s).calls s.calls.length = challenge :=
    challengeOf_last
  have htime : ∀ i ∈ holders s.calls,
      timeOf (accepted now challenge s).calls i = timeOf s.calls i :=
    fun i hi => timeOf_append (lt_of_mem_holders hi)
  have hchallenge : ∀ i ∈ holders s.calls,
      challengeOf (accepted now challenge s).calls i = challengeOf s.calls i :=
    fun i hi => challengeOf_append (lt_of_mem_holders hi)
  have hnonneg : ¬windowMs < now - now := by
    unfold windowMs
    norm_num
  refine ⟨?_, fun i hi => ?_, fun i hi => ?_, fun entry hmem => ?_, ⟨now, fun i hi => ?_,
    fun entry hmem => ?_⟩, fun i hi j hj hlt hsame => ?_⟩
  · rw [hgrown]
    refine (h.limited.congr htime).insert ?_
    have hfilter : (holders s.calls).filter (fun i =>
        timeOf (accepted now challenge s).calls s.calls.length - windowMs ≤
          timeOf (accepted now challenge s).calls i) =
        (holders s.calls).filter (fun i => now - windowMs ≤ timeOf s.calls i) := by
      refine Finset.filter_congr (fun i hi => ?_)
      rw [hlast, htime i hi]
    rw [hfilter]
    exact (recent_card_le h).trans_lt hroom
  · rw [hgrown] at hi
    rcases Finset.mem_insert.mp hi with rfl | hi
    · exact .inl ⟨_, List.mem_append_right _ (List.mem_singleton_self _), rfl⟩
    · rw [htime i hi]
      rcases h.reserved i hi with ⟨reservation, hmem, heq⟩ | hold
      · exact .inl ⟨reservation, List.mem_append_left _ hmem, heq⟩
      · exact .inr hold
  · rw [hgrown] at hi
    rcases Finset.mem_insert.mp hi with rfl | hi
    · exact .inl ⟨_, List.mem_append_right _ (List.mem_singleton_self _), rfl⟩
    · rw [htime i hi]
      rcases h.remembered i hi with ⟨entry, hmem, heq⟩ | hold
      · exact .inl ⟨entry, List.mem_append_left _ hmem, heq⟩
      · exact .inr hold
  · rw [hgrown]
    rcases List.mem_append.mp hmem with hmem | hmem
    · exact Finset.mem_insert_of_mem (h.replayHolds entry hmem)
    · rw [List.mem_singleton.mp hmem]
      exact Finset.mem_insert_self _ _
  · rw [hgrown] at hi
    rcases Finset.mem_insert.mp hi with rfl | hi
    · exact hlast.le
    · rw [htime i hi]
      exact htimes i hi
  · rcases List.mem_append.mp hmem with hmem | hmem
    · exact hrecent entry hmem
    · rw [List.mem_singleton.mp hmem]
      unfold replayTtlMs
      linarith
  · rw [hgrown] at hi hj
    rcases Finset.mem_insert.mp hi with rfl | hi
    · rcases Finset.mem_insert.mp hj with rfl | hj
      · exact absurd hlt (lt_irrefl _)
      · have hbound := lt_of_mem_holders hj
        omega
    · rw [htime i hi]
      rw [hchallenge i hi] at hsame
      rcases Finset.mem_insert.mp hj with rfl | hj
      · rw [hname] at hsame
        rw [hlast]
        rcases h.remembered i hi with ⟨entry, hmem, rfl⟩ | hold
        · have hknown := (hb.replayKnown entry hmem).2.2
          exact absurd (hknown.symm.trans hsame) (hnew entry hmem)
        · exact hold
      · rw [htime j hj]
        rw [hchallenge j hj] at hsame
        exact h.apart i hi j hj hlt hsame

/-- A call settles, and reservations and entries are given back at most. -/
theorem booked_settled (h : Booked s) {index : ℕ} {call : Call} {status : CallStatus}
    (hcall : s.calls[index]? = some call) {requests : List Reservation}
    {replay : List ReplayEntry} (hrequests : requests.Sublist s.requests)
    (hreplay : replay.Sublist s.replay) :
    Booked ⟨replay, requests, s.calls.set index { call with status }⟩ := by
  refine ⟨h.requestCalls.sublist (hrequests.map _), fun reservation hmem => ?_,
    h.replayCalls.sublist (hreplay.map _), fun entry hmem => ?_⟩
  · dsimp only
    rw [timeOf_set hcall, List.length_set]
    exact h.requestKnown reservation (hrequests.subset hmem)
  · dsimp only
    rw [timeOf_set hcall, challengeOf_set hcall, List.length_set]
    exact h.replayKnown entry (hreplay.subset hmem)

/-- A call settles and keeps its reservation. -/
theorem held_kept (h : Held now s) {index : ℕ} {call : Call} {status : CallStatus}
    (hcall : s.calls[index]? = some call) (hbefore : holds call.status = true)
    (hafter : holds status = true) :
    Held now { s with calls := s.calls.set index { call with status } } := by
  have hholders : holders (s.calls.set index { call with status }) = holders s.calls := by
    ext i
    rw [mem_holders_set hcall]
    split
    · next hsame =>
      rw [hsame, mem_holders, hcall]
      simp [hbefore, hafter]
    · rfl
  have htime : timeOf (s.calls.set index { call with status }) = timeOf s.calls := by
    funext i
    exact timeOf_set hcall i
  have hchallenge : challengeOf (s.calls.set index { call with status }) =
      challengeOf s.calls := by
    funext i
    exact challengeOf_set hcall i
  refine ⟨?_, ?_, ?_, ?_, ?_, ?_⟩ <;> dsimp only <;> rw [hholders]
  · rw [htime]
    exact h.limited
  · rw [htime]
    exact h.reserved
  · rw [htime]
    exact h.remembered
  · exact h.replayHolds
  · rw [htime]
    exact h.recent
  · rw [htime, hchallenge]
    exact h.apart

/-- So few challenges are remembered that none is given up for another. -/
theorem replay_length_le (h : Held now s) (hb : Booked s) : s.replay.length ≤ maxReplays := by
  obtain ⟨latest, hlatest, hentries⟩ := h.recent
  have hwidth : windowMs + windowMs = replayTtlMs := by
    unfold windowMs replayTtlMs
    norm_num
  have hrecent := h.limited.card_recent_le hlatest
  rw [hwidth] at hrecent
  have hsubset : (s.replay.map ReplayEntry.call).toFinset ⊆
      (holders s.calls).filter (fun i => latest - replayTtlMs ≤ timeOf s.calls i) := by
    intro i hi
    obtain ⟨entry, hmem, rfl⟩ := List.mem_map.mp (List.mem_toFinset.mp hi)
    refine Finset.mem_filter.mpr ⟨h.replayHolds entry hmem, ?_⟩
    rw [(hb.replayKnown entry hmem).2.1]
    exact hentries entry hmem
  have hcard := Finset.card_le_card hsubset
  rw [List.toFinset_card_of_nodup hb.replayCalls, List.length_map] at hcard
  have hlimit : maxPerMinute = 6 := rfl
  have hmax : maxReplays = 32 := rfl
  omega

/-- A call gives back its own reservation and its own entry. This is where the condition enters: the
reservation that is popped has to be the call's. -/
theorem held_failed (h : Held now s) (hb : Booked s) {index : ℕ} {call : Call}
    (hcall : s.calls[index]? = some call) (reason : String)
    (hrequests : ∀ reservation ∈ s.requests.getLast?, reservation.call = index)
    (hreplay : ∀ entry ∈ s.replay, entry.challenge = call.challenge → entry.call = index) :
    Held now (failSnapshot index call reason s) := by
  have hholders : ∀ i, i ∈ holders (failSnapshot index call reason s).calls ↔
      i ∈ holders s.calls ∧ i ≠ index := by
    intro i
    have hmem : i ∈ holders (failSnapshot index call reason s).calls ↔
        if i = index then holds (.snapshotFailed reason) = true else i ∈ holders s.calls :=
      mem_holders_set hcall
    rw [hmem]
    split
    · next hsame =>
      constructor
      · intro hfalse
        cases hfalse
      · intro hother
        exact absurd hsame hother.2
    · next hother =>
      constructor
      · intro hi
        exact ⟨hi, hother⟩
      · intro hi
        exact hi.1
  have htime : timeOf (failSnapshot index call reason s).calls = timeOf s.calls := by
    funext i
    exact timeOf_set hcall i
  have hchallenge : challengeOf (failSnapshot index call reason s).calls =
      challengeOf s.calls := by
    funext i
    exact challengeOf_set hcall i
  refine ⟨?_, fun i hi => ?_, fun i hi => ?_, fun entry hmem => ?_, ?_, fun i hi j hj => ?_⟩
  · rw [htime]
    exact h.limited.mono (fun i hi => ((hholders i).mp hi).1)
  · obtain ⟨hi, hother⟩ := (hholders i).mp hi
    rw [htime]
    rcases h.reserved i hi with ⟨reservation, hmem, rfl⟩ | hold
    · refine .inl ⟨reservation, ?_, rfl⟩
      have hne : s.requests ≠ [] := List.ne_nil_of_mem hmem
      rw [← List.dropLast_append_getLast hne] at hmem
      rcases List.mem_append.mp hmem with hmem | hmem
      · exact hmem
      · have hlast := hrequests reservation (by
          rw [List.getLast?_eq_some_getLast hne, List.mem_singleton.mp hmem]
          rfl)
        exact absurd hlast hother
    · exact .inr hold
  · obtain ⟨hi, hother⟩ := (hholders i).mp hi
    rw [htime]
    rcases h.remembered i hi with ⟨entry, hmem, rfl⟩ | hold
    · refine .inl ⟨entry, List.mem_filter.mpr ⟨hmem, decide_eq_true ?_⟩, rfl⟩
      intro hsame
      exact hother (hreplay entry hmem hsame)
    · exact .inr hold
  · obtain ⟨hmem, hdifferent⟩ := List.mem_filter.mp hmem
    refine (hholders _).mpr ⟨h.replayHolds entry hmem, fun hsame => ?_⟩
    have hknown := (hb.replayKnown entry hmem).2.2
    have hname : challengeOf s.calls index = call.challenge := by
      unfold challengeOf
      rw [hcall]
      rfl
    rw [hsame, hname] at hknown
    exact of_decide_eq_true hdifferent hknown.symm
  · obtain ⟨latest, hlatest, hentries⟩ := h.recent
    rw [htime]
    exact ⟨latest, fun i hi => hlatest i ((hholders i).mp hi).1,
      fun entry hmem => hentries entry (List.mem_filter.mp hmem).1⟩
  · rw [htime, hchallenge]
    exact h.apart i ((hholders i).mp hi).1 j ((hholders j).mp hj).1

end Invariant

section Steps

variable {options : IsolationResponderOptions} {s : Responder} {event : Event}

/-- The snapshot that settled is refused. -/
def failed (outcome : Except String IsolationSnapshot) (now : ℚ) : Bool :=
  match currentSnapshot outcome now with
  | .error _ => true
  | .ok _ => false

/-- The call whose snapshot fails in an event. -/
def failing (s : Responder) : Event → Option (ℕ × Call)
  | .attest _ _ => none
  | .settle index outcome =>
    match s.calls[index]? with
    | none => none
    | some call =>
      if call.status = .waiting ∧ failed outcome call.time = true then some (index, call) else none

/-- The clock does not go back. -/
def TimelyEvent (s : Responder) : Event → Prop
  | .attest now _ => ∀ call ∈ s.calls, call.time ≤ now
  | .settle _ _ => True

instance (s : Responder) (event : Event) : Decidable (TimelyEvent s event) :=
  match event with
  | .attest now _ => inferInstanceAs (Decidable (∀ call ∈ s.calls, call.time ≤ now))
  | .settle _ _ => isTrue trivial

/-- If a snapshot fails, the reservation made last is the one of its call, and so is the entry
under its challenge. -/
def OwnsLatest (s : Responder) (event : Event) : Prop :=
  ∀ entry ∈ failing s event,
    (∀ reservation ∈ s.requests.getLast?, reservation.call = entry.1) ∧
      ∀ other ∈ s.replay, other.challenge = entry.2.challenge → other.call = entry.1

instance (s : Responder) (event : Event) : Decidable (OwnsLatest s event) :=
  inferInstanceAs (Decidable (∀ entry ∈ failing s event, _))

/-- If a snapshot fails, its call gives back its own reservation and its own entry. -/
def RemovesOwn (options : IsolationResponderOptions) (s : Responder) (event : Event) : Prop :=
  ∀ entry ∈ failing s event,
    (step options s event).requests =
        s.requests.filter (fun reservation => reservation.call ≠ entry.1) ∧
      (step options s event).replay = s.replay.filter (fun other => other.call ≠ entry.1)

/-- What an event with a snapshot that fails does. -/
theorem step_failing (options : IsolationResponderOptions) {entry : ℕ × Call}
    (h : failing s event = some entry) :
    s.calls[entry.1]? = some entry.2 ∧
      ∃ reason, step options s event = failSnapshot entry.1 entry.2 reason s := by
  cases event with
  | attest now value => cases h
  | settle index outcome =>
    unfold failing at h
    dsimp only at h
    cases hcall : s.calls[index]? with
    | none =>
      rw [hcall] at h
      cases h
    | some call =>
      rw [hcall] at h
      dsimp only at h
      split at h
      · next hfails =>
        cases h
        refine ⟨hcall, ?_⟩
        obtain ⟨hwaiting, hfailed⟩ := hfails
        unfold failed at hfailed
        cases hcurrent : currentSnapshot outcome call.time with
        | ok value =>
          rw [hcurrent] at hfailed
          cases hfailed
        | error reason =>
          refine ⟨reason, ?_⟩
          unfold step settle
          dsimp only
          rw [hcall]
          dsimp only
          rw [if_neg (not_not.mpr hwaiting), hcurrent]
      · cases h

/-- What an event without such a snapshot does. -/
theorem step_settle (options : IsolationResponderOptions) {index : ℕ}
    {outcome : Except String IsolationSnapshot}
    (h : failing s (.settle index outcome) = none) :
    step options s (.settle index outcome) = s ∨ ∃ call value,
      s.calls[index]? = some call ∧ call.status = .waiting ∧
        step options s (.settle index outcome) = answer options index call value s := by
  unfold failing at h
  dsimp only at h
  unfold step settle
  dsimp only
  cases hcall : s.calls[index]? with
  | none => exact .inl rfl
  | some call =>
    rw [hcall] at h
    dsimp only at h ⊢
    by_cases hwaiting : call.status = .waiting
    · rw [if_neg (not_not.mpr hwaiting)]
      cases hcurrent : currentSnapshot outcome call.time with
      | ok value => exact .inr ⟨call, value, rfl, hwaiting, rfl⟩
      | error reason =>
        have hfailed : failed outcome call.time = true := by
          unfold failed
          rw [hcurrent]
        rw [if_pos ⟨hwaiting, hfailed⟩] at h
        cases h
    · rw [if_pos hwaiting]
      exact .inl rfl

/-- What a call does until it waits. -/
theorem attest_cases (now : ℚ) (value : ChallengeInput) (s : Responder) :
    (∃ reason, attest now value s = refuse now value.challenge reason s) ∨
      (∃ reason, attest now value s = refuse now value.challenge reason (expired now s)) ∨
      (attest now value s = accepted now value.challenge (expired now s) ∧
        (expired now s).requests.length < maxPerMinute ∧
        ∀ entry ∈ (expired now s).replay, entry.challenge ≠ value.challenge) := by
  unfold attest
  split
  · exact .inl ⟨_, rfl⟩
  · dsimp only
    split
    · exact .inr (.inl ⟨_, rfl⟩)
    · next hroom =>
      split
      · exact .inr (.inl ⟨_, rfl⟩)
      · next hnew =>
        refine .inr (.inr ⟨rfl, not_le.mp hroom, fun entry hmem hsame => hnew ?_⟩)
        exact List.any_eq_true.mpr ⟨entry, hmem, decide_eq_true hsame⟩

/-- Every step keeps the books. -/
theorem booked_step (options : IsolationResponderOptions) (h : Booked s) (event : Event) :
    Booked (step options s event) := by
  cases hfailing : failing s event with
  | some entry =>
    obtain ⟨hcall, reason, hstep⟩ := step_failing options hfailing
    rw [hstep]
    exact booked_settled h hcall (List.dropLast_sublist _) List.filter_sublist
  | none =>
    cases event with
    | attest now value =>
      change Booked (attest now value s)
      rcases attest_cases now value s with ⟨reason, hcase⟩ | ⟨reason, hcase⟩ | ⟨hcase, -⟩
      · rw [hcase]
        exact booked_refused h _
      · rw [hcase]
        exact booked_refused (booked_expired h) _
      · rw [hcase]
        exact booked_accepted (booked_expired h) _
    | settle index outcome =>
      rcases step_settle options hfailing with hsame | ⟨call, value, hcall, -, hstep⟩
      · rw [hsame]
        exact h
      · rw [hstep]
        refine booked_settled h hcall (List.Sublist.refl _) ?_
        split
        · exact List.drop_sublist _ _
        · exact List.Sublist.refl _

/-- The last of several different items is the one that is left out. -/
theorem dropLast_eq_filter_iff {α : Type*} {name : α → ℕ} {items : List α}
    (hnodup : (items.map name).Nodup) (index : ℕ) :
    items.dropLast = items.filter (fun item => name item ≠ index) ↔
      ∀ item ∈ items.getLast?, name item = index := by
  induction items using List.reverseRecOn with
  | nil =>
    constructor
    · intro _ item hitem
      cases hitem
    · intro _
      rfl
  | append_singleton front last _ =>
    rw [List.dropLast_concat, List.getLast?_concat, List.filter_append]
    have hnew : ∀ item ∈ front, name item ≠ name last := by
      rw [List.map_append, List.nodup_append] at hnodup
      intro item hmem
      exact hnodup.2.2 _ (List.mem_map_of_mem hmem) _ (List.mem_singleton_self _)
    constructor
    · intro heq item hitem
      cases hitem
      by_contra hother
      have hkept : [last].filter (fun item => name item ≠ index) = [last] := by
        simp [hother]
      rw [hkept] at heq
      have hfront : last ∈ front := by
        rw [heq]
        exact List.mem_append_right _ (List.mem_singleton_self last)
      exact hnew last hfront rfl
    · intro hlast
      have hname : name last = index := hlast last rfl
      have hdropped : [last].filter (fun item => name item ≠ index) = [] := by
        simp [hname]
      have hall : front.filter (fun item => name item ≠ index) = front := by
        refine List.filter_eq_self.mpr (fun item hmem => decide_eq_true (fun hsame => ?_))
        exact hnew item hmem (hsame.trans hname.symm)
      rw [hdropped, hall, List.append_nil]

/-- A call gives back its own exactly if the latest reservation and the entry are its own. -/
theorem removesOwn_iff (h : Booked s) (event : Event) :
    RemovesOwn options s event ↔ OwnsLatest s event := by
  unfold RemovesOwn OwnsLatest
  refine forall₂_congr (fun entry hentry => ?_)
  obtain ⟨hcall, reason, hstep⟩ := step_failing options hentry
  have hname : challengeOf s.calls entry.1 = entry.2.challenge := by
    unfold challengeOf
    rw [hcall]
    rfl
  rw [hstep]
  change s.requests.dropLast = _ ∧ s.replay.filter _ = _ ↔ _
  refine and_congr (dropLast_eq_filter_iff h.requestCalls entry.1) ?_
  constructor
  · intro heq other hmem hsame
    by_contra hdifferent
    have hkept : other ∈ s.replay.filter (fun other => other.call ≠ entry.1) :=
      List.mem_filter.mpr ⟨hmem, decide_eq_true hdifferent⟩
    rw [← heq] at hkept
    exact of_decide_eq_true (List.mem_filter.mp hkept).2 hsame
  · intro hown
    refine List.filter_congr (fun other hmem => ?_)
    have hiff : other.challenge ≠ entry.2.challenge ↔ other.call ≠ entry.1 := by
      refine not_congr ⟨hown other hmem, fun hsame => ?_⟩
      have hknown := (h.replayKnown other hmem).2.2
      rw [hsame, hname] at hknown
      exact hknown.symm
    exact decide_eq_decide.mpr hiff

/-- What holds of a responder at every time that is not earlier than its calls. -/
def Sound (s : Responder) : Prop :=
  Booked s ∧ ∀ now, (∀ call ∈ s.calls, call.time ≤ now) → Held now s

/-- Who holds a reservation began no later than every call. -/
theorem holders_times {calls : List Call} {now : ℚ} (h : ∀ call ∈ calls, call.time ≤ now) :
    ∀ i ∈ holders calls, timeOf calls i ≤ now := by
  intro i hi
  obtain ⟨call, hcall, -⟩ := mem_holders.mp hi
  unfold timeOf
  rw [hcall]
  exact h call (List.mem_of_getElem? hcall)

/-- A call that begins keeps a responder sound. -/
theorem sound_attest (h : Sound s) {now : ℚ} (htimely : ∀ call ∈ s.calls, call.time ≤ now)
    (value : ChallengeInput) : Sound (attest now value s) := by
  obtain ⟨hb, hheld⟩ := h
  refine ⟨booked_step ⟨fun _ => [], id⟩ hb (.attest now value), fun later hlater => ?_⟩
  have hnow : Held now s := hheld now htimely
  rcases attest_cases now value s with ⟨reason, hcase⟩ | ⟨reason, hcase⟩ | ⟨hcase, hroom, hnew⟩
  · rw [hcase] at hlater ⊢
    have hle := hlater _ (List.mem_append_right _ (List.mem_singleton_self _))
    have hrefused : Held now (refuse now value.challenge reason s) := held_refused hnow rfl
    exact hrefused.advance hle
  · rw [hcase] at hlater ⊢
    have hle := hlater _ (List.mem_append_right _ (List.mem_singleton_self _))
    have hrefused : Held now (refuse now value.challenge reason (expired now s)) :=
      held_refused (held_expired hnow hb) rfl
    exact hrefused.advance hle
  · rw [hcase] at hlater ⊢
    have hle := hlater _ (List.mem_append_right _ (List.mem_singleton_self _))
    have haccepted : Held now (accepted now value.challenge (expired now s)) :=
      held_accepted (held_expired hnow hb) (booked_expired hb) (holders_times htimely)
        (fun entry hmem => expired_recent hmem) hroom hnew
    exact haccepted.advance hle

/-- A step in which no call takes from another keeps a responder sound. -/
theorem sound_step (s : Responder) (event : Event)
    (hevent : TimelyEvent s event ∧ OwnsLatest s event)
    (h : Sound s) : Sound (step options s event) := by
  obtain ⟨htimely, howns⟩ := hevent
  have hbooked : Booked (step options s event) := booked_step options h.1 event
  cases hfailing : failing s event with
  | some entry =>
    obtain ⟨hcall, reason, hstep⟩ := step_failing options hfailing
    obtain ⟨hrequests, hreplay⟩ := howns entry hfailing
    refine ⟨hbooked, fun now hnow => ?_⟩
    rw [hstep] at hnow ⊢
    have hbefore : ∀ call ∈ s.calls, call.time ≤ now := times_before_set hcall hnow
    exact held_failed (h.2 now hbefore) h.1 hcall reason hrequests hreplay
  | none =>
    cases event with
    | attest now value => exact sound_attest h htimely value
    | settle index outcome =>
      rcases step_settle options hfailing with hsame | ⟨call, value, hcall, hwait, hstep⟩
      · rw [hsame]
        exact h
      · refine ⟨hbooked, fun now hnow => ?_⟩
        rw [hstep] at hnow ⊢
        have hbefore : ∀ call ∈ s.calls, call.time ≤ now := times_before_set hcall hnow
        have hheld := h.2 now hbefore
        have hlength : ¬s.replay.length > maxReplays := not_lt.mpr (replay_length_le hheld h.1)
        have hholds : holds call.status = true := by
          rw [hwait]
          rfl
        unfold answer
        dsimp only
        rw [if_neg hlength]
        refine held_kept hheld hcall hholds ?_
        split <;> rfl

/-- No calls are within every limit. -/
theorem sound_initial : Sound {} := by
  have hempty : holders ([] : List Call) = ∅ := rfl
  refine ⟨⟨List.nodup_nil, by simp, List.nodup_nil, by simp⟩, fun now _ => ?_⟩
  refine ⟨?_, by simp [hempty], by simp [hempty], by simp, ⟨now, by simp [hempty], by simp⟩,
    by simp [hempty]⟩
  dsimp only
  rw [hempty]
  exact limited_empty

end Steps

section Promises

/-- At most six calls that succeed begin within a minute. -/
def RateLimited (s : Responder) : Prop :=
  Limited (timeOf s.calls) windowMs maxPerMinute (successes s.calls)

/-- Calls that succeed with one challenge begin more than two minutes apart. -/
def NoReplay (s : Responder) : Prop :=
  ∀ i ∈ successes s.calls, ∀ j ∈ successes s.calls, i ≠ j →
    challengeOf s.calls i = challengeOf s.calls j →
    replayTtlMs < |timeOf s.calls i - timeOf s.calls j|

/-- What a responder promises of a run. -/
def Promises (options : IsolationResponderOptions) (events : List Event) : Prop :=
  RateLimited (runResponder options events) ∧ NoReplay (runResponder options events) ∧
    Along (step options) (RemovesOwn options) {} events

variable {s : Responder} {now : ℚ}

/-- At most six reservations a minute mean at most six successes. -/
theorem Held.rateLimited (h : Held now s) : RateLimited s := h.limited.mono successes_subset

/-- Two successes with one challenge are apart by the time it is remembered. -/
theorem Held.noReplay (h : Held now s) : NoReplay s := by
  intro i hi j hj hdifferent hsame
  have hholds := successes_subset hi
  have hholds' := successes_subset hj
  rcases Nat.lt_or_gt_of_ne hdifferent with hlt | hgt
  · have hapart := h.apart i hholds j hholds' hlt hsame
    rw [abs_sub_comm]
    exact hapart.trans_le (le_abs_self _)
  · have hapart := h.apart j hholds' i hholds hgt hsame.symm
    exact hapart.trans_le (le_abs_self _)

/-- A time at which no call is later. -/
theorem exists_time (calls : List Call) : ∃ now : ℚ, ∀ call ∈ calls, call.time ≤ now := by
  induction calls with
  | nil => exact ⟨0, by simp⟩
  | cons call calls ih =>
    obtain ⟨now, hnow⟩ := ih
    refine ⟨max call.time now, fun other hother => ?_⟩
    rcases List.mem_cons.mp hother with rfl | hother
    · exact le_max_left _ _
    · exact (hnow other hother).trans (le_max_right _ _)

/-- With a clock that does not go back, a responder keeps its promises in a run exactly if in
every failure of a snapshot the reservation made last is the one of the failing call. -/
theorem promises_iff (options : IsolationResponderOptions) (events : List Event)
    (htimely : Along (step options) TimelyEvent {} events) :
    Promises options events ↔ Along (step options) OwnsLatest {} events := by
  have hbooked : Booked {} := sound_initial.1
  have howns : Along (step options) (RemovesOwn options) {} events ↔
      Along (step options) OwnsLatest {} events :=
    along_congr (step options) (I := Booked) (fun s event h => booked_step options h event)
      (fun s event h => removesOwn_iff h event) hbooked events
  unfold Promises
  rw [howns]
  constructor
  · intro h
    exact h.2.2
  · intro h
    have hboth := (along_and (step options)).mpr ⟨htimely, h⟩
    have hsound : Sound (runResponder options events) :=
      invariant_along (step options) sound_step sound_initial hboth
    obtain ⟨now, hnow⟩ := exists_time (runResponder options events).calls
    have hheld := hsound.2 now hnow
    exact ⟨hheld.rateLimited, hheld.noReplay, h⟩

/-- A platform for examples. -/
def benchResponder : IsolationResponderOptions := ⟨fun _ => [], fun bytes => bytes⟩

/-- A challenge for examples. -/
def benchChallenge (last : UInt8) : ChallengeInput :=
  ⟨true, List.replicate 42 0x41 ++ [last]⟩

/-- A snapshot observed at a time. -/
def benchSnapshot (observedAtMs : ℚ) : IsolationSnapshot where
  expectedPeerPublicKey := [0x6e, 0x70, 0x75, 0x62, 0x31, 0x71]
  targetIpv6 := [0x66, 0x64, 0x30, 0x30, 0x3a, 0x31]
  build := List.replicate 40 0x30
  epoch := 1
  settingsId := [0x73]
  observedAtMs := observedAtMs
  transport := ⟨1, [0x73, 0x6f, 0x75, 0x6e, 0x64], [0x61, 0x63, 0x74, 0x69, 0x76, 0x65], true, true⟩
  link := ⟨1, [0x6e, 0x70, 0x75, 0x62, 0x31, 0x71]⟩

/-- One call whose snapshot fails, and one that succeeds with the same challenge. -/
def benchRetry : List Event :=
  [.attest 0 (benchChallenge 0x41), .settle 0 (.error "failed"),
    .attest 1 (benchChallenge 0x41), .settle 1 (.ok (benchSnapshot 1))]

set_option maxRecDepth 8000 in
/-- One success after a failure, both with the same challenge, is within the limits. -/
theorem promises_iff_benchRetry :
    Along (step benchResponder) TimelyEvent {} benchRetry ∧
      (Promises benchResponder benchRetry ↔ Along (step benchResponder) OwnsLatest {} benchRetry) ∧
      (successes (runResponder benchResponder benchRetry).calls).card = 1 := by
  have htimely : Along (step benchResponder) TimelyEvent {} benchRetry := by decide +kernel
  exact ⟨htimely, promises_iff benchResponder benchRetry htimely, by decide +kernel⟩

/-- A call that began a minute ago fails after five others have begun, and two more begin. -/
def benchOverlap : List Event :=
  .attest 0 (benchChallenge 0x41) ::
    [0x42, 0x43, 0x44, 0x45, 0x46].map (fun last => .attest 60000 (benchChallenge last)) ++
    [.settle 0 (.error "failed")] ++
    [0x47, 0x48].map (fun last => .attest 60001 (benchChallenge last)) ++
    [1, 2, 3, 4, 5, 6, 7].map (fun index => .settle index (.ok (benchSnapshot 60000)))

set_option maxRecDepth 8000 in
/-- Seven calls succeed within a minute when a failing call takes another's reservation back. -/
theorem not_promises : ¬∀ (options : IsolationResponderOptions) (events : List Event),
    Along (step options) TimelyEvent {} events → Promises options events := by
  intro h
  have hlimited := (h benchResponder benchOverlap (by decide +kernel)).1 60000
  have hseven : (within (timeOf (runResponder benchResponder benchOverlap).calls) windowMs 60000
      (successes (runResponder benchResponder benchOverlap).calls)).card = 7 := by decide +kernel
  rw [hseven] at hlimited
  exact absurd hlimited (by decide)

end Promises

end Fipwave.AttestationLimits
