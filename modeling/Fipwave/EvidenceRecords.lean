import Fipwave.QuietEvidence
import Fipwave.TransitionRun

/-!
# Records of a receive session

Within a session every arrival goes into one case and every case is digested
at most once, provided no fragment is collected into a case whose digest is
under way. So no arrival contributes to two complete records. Whatever
arrives, only the first complete record of a session is cold.
-/

namespace Fipwave.EvidenceRecords

open ByteWords QualificationSession QuietEvidence TransitionRun

variable {options : EvidenceOptions} {e : QuietReceiverEvidence}

/-- The fragment the receiver collects of what arrives, with its entry of the manifest. -/
def taken (options : EvidenceOptions) (session : ReceiverSession) (raw : Bytes) :
    Option (QuietFragment × CorpusEntry) := do
  let fragment ← decodeFragment options raw
  if !isExpected session fragment then none
  else
    let expected ← options.corpus.find? (fun entry => entry.id = fragment.caseId)
    if !fits expected fragment then none
    else return (fragment, expected)

/-- What arrives is collected, counted or ignored. -/
theorem accept_cases (options : EvidenceOptions) (raw : Bytes) (nowMs : ℚ)
    (e : QuietReceiverEvidence) :
    (∃ fragment expected, taken options e.session raw = some (fragment, expected) ∧
      accept options raw nowMs e =
        collect e.arrived fragment expected nowMs { e with arrived := e.arrived + 1 }) ∨
    (taken options e.session raw = none ∧
      (accept options raw nowMs e = discontinuity { e with arrived := e.arrived + 1 } ∨
        accept options raw nowMs e = { e with arrived := e.arrived + 1 })) := by
  unfold taken accept
  cases hfragment : decodeFragment options raw with
  | none => exact .inr ⟨rfl, .inr rfl⟩
  | some fragment =>
    simp only [Option.bind_eq_bind, Option.bind_some]
    by_cases hexpected : (!isExpected e.session fragment) = true
    · rw [if_pos hexpected, if_pos hexpected]
      exact .inr ⟨rfl, .inr rfl⟩
    · rw [if_neg hexpected, if_neg hexpected]
      cases hentry : options.corpus.find? (fun entry => entry.id = fragment.caseId) with
      | none => exact .inr ⟨rfl, .inl rfl⟩
      | some expected =>
        simp only [Option.bind_some]
        by_cases hfits : (!fits expected fragment) = true
        · rw [if_pos hfits, if_pos hfits]
          exact .inr ⟨rfl, .inl rfl⟩
        · rw [if_neg hfits, if_neg hfits]
          exact .inl ⟨fragment, expected, rfl, rfl⟩

/-- A decoded fragment is one of the fragments of its case. -/
theorem decodeFragment_index {raw : Bytes} {fragment : QuietFragment}
    (h : decodeFragment options raw = some fragment) :
    fragment.fragmentIndex < fragment.fragmentCount := by
  unfold decodeFragment at h
  split at h
  · cases h
  · split at h
    · cases h
    · next hindex =>
      obtain ⟨direction, -, h⟩ := Option.bind_eq_some_iff.mp h
      obtain ⟨entry, -, h⟩ := Option.bind_eq_some_iff.mp h
      split at h
      · cases h
      · obtain ⟨sender, -, h⟩ := Option.bind_eq_some_iff.mp h
        cases h
        dsimp only
        omega

/-- A fragment that is taken lies below its own fragment count. -/
theorem taken_index {session : ReceiverSession} {raw : Bytes} {fragment : QuietFragment}
    {expected : CorpusEntry} (h : taken options session raw = some (fragment, expected)) :
    fragment.fragmentIndex < fragment.fragmentCount := by
  unfold taken at h
  obtain ⟨other, hdecoded, h⟩ := Option.bind_eq_some_iff.mp h
  split at h
  · cases h
  · obtain ⟨entry, -, h⟩ := Option.bind_eq_some_iff.mp h
    split at h
    · cases h
    · cases h
      exact decodeFragment_index hdecoded

/-- Every fragment of a case is there. -/
def Full (current : PartialCase) : Prop := current.parts.length = current.fragment.fragmentCount

/-- What holds of a case. -/
structure CaseState (e : QuietReceiverEvidence) (current : PartialCase) : Prop where
  /-- Its arrivals are past. -/
  past : ∀ arrival ∈ current.arrivals, arrival < e.arrived
  /-- Every payload was stored at one of its arrivals. -/
  stored : ∀ part ∈ current.parts, ∃ arrival ∈ current.arrivals,
    ⟨arrival, current.fragment.key, part.1⟩ ∈ e.stored
  /-- No fragment is held twice. -/
  nodup : (current.parts.map (·.1)).Nodup
  /-- Its fragments are numbered below their count. -/
  bound : ∀ part ∈ current.parts, part.1 < current.fragment.fragmentCount

/-- What holds of a receiver within a session. -/
structure Collected (e : QuietReceiverEvidence) : Prop where
  /-- Names are given in order. -/
  named : ∀ name current, e.cases name = some current → name < e.nextCase
  /-- Every case is in order. -/
  state : ∀ name current, e.cases name = some current → CaseState e current
  /-- No arrival went into two cases. -/
  apart : ∀ first second left right, e.cases first = some left → e.cases second = some right →
    first ≠ second → left.arrivals.Disjoint right.arrivals
  /-- A key is mapped to a case of that key. -/
  mapped : ∀ entry ∈ e.parts, ∃ current, e.cases entry.2 = some current ∧
    current.fragment.key = entry.1
  /-- No key is mapped twice. -/
  keys : (e.parts.map (·.1)).Nodup
  /-- Digests are of full cases. -/
  digests : ∀ digest ∈ e.pending, ∃ current, e.cases digest.caseName = some current ∧
    current.fragment.key = digest.fragment.key ∧ Full current ∧ current.parts ≠ []
  /-- No case is digested twice at once. -/
  digestsOnce : (e.pending.map (·.caseName)).Nodup
  /-- Records are of cases that arrived in full. -/
  completed : ∀ record ∈ e.completions, ∃ current, e.cases record.caseName = some current ∧
    (∀ arrival ∈ record.arrivals, arrival ∈ current.arrivals) ∧
    ∃ arrival ∈ record.arrivals, ⟨arrival, record.key, 0⟩ ∈ e.stored
  /-- No case has two records. -/
  completedOnce : (e.completions.map (·.caseName)).Nodup
  /-- No case with a record is digested. -/
  finished : ∀ record ∈ e.completions, ∀ digest ∈ e.pending, record.caseName ≠ digest.caseName
  /-- No case with a record is in the map. -/
  left : ∀ record ∈ e.completions, ∀ entry ∈ e.parts, entry.2 ≠ record.caseName

/-- The parts of the receiver that the invariant is about. -/
structure SameCases (e e' : QuietReceiverEvidence) : Prop where
  /-- The map. -/
  parts : e'.parts = e.parts
  /-- The cases. -/
  cases : e'.cases = e.cases
  /-- The names given. -/
  nextCase : e'.nextCase = e.nextCase
  /-- The digests. -/
  pending : e'.pending = e.pending
  /-- The arrivals. -/
  arrived : e.arrived ≤ e'.arrived
  /-- The payloads stored. -/
  stored : e'.stored = e.stored
  /-- The records. -/
  completions : e'.completions = e.completions

/-- The bookkeeping invariant reads the maps of cases and nothing else. -/
theorem Collected.congr {e' : QuietReceiverEvidence} (h : Collected e) (hsame : SameCases e e') :
    Collected e' := by
  obtain ⟨hparts, hcases, hnext, hpending, harrived, hstored, hcompletions⟩ := hsame
  refine ⟨?_, ?_, ?_, ?_, ?_, ?_, ?_, ?_, ?_, ?_, ?_⟩
  · rw [hcases, hnext]
    exact h.named
  · intro name current hcase
    rw [hcases] at hcase
    obtain ⟨hpast, hold, hnodup, hbound⟩ := h.state name current hcase
    refine ⟨fun arrival hmem => (hpast arrival hmem).trans_le harrived, ?_, hnodup, hbound⟩
    rw [hstored]
    exact hold
  · rw [hcases]
    exact h.apart
  · rw [hparts, hcases]
    exact h.mapped
  · rw [hparts]
    exact h.keys
  · rw [hpending, hcases]
    exact h.digests
  · rw [hpending]
    exact h.digestsOnce
  · rw [hcompletions, hcases, hstored]
    exact h.completed
  · rw [hcompletions]
    exact h.completedOnce
  · rw [hcompletions, hpending]
    exact h.finished
  · rw [hcompletions, hparts]
    exact h.left

section Collect

variable {arrival name nextCase : ℕ} {fragment : QuietFragment} {expected : CorpusEntry}
  {nowMs : ℚ} {before : PartialCase} {parts : List (CaseKey × ℕ)}

/-- The case a fragment is collected into: the one in the map, or a new one. -/
inductive Origin (e : QuietReceiverEvidence) (fragment : QuietFragment) (nowMs : ℚ) :
    ℕ → PartialCase → List (CaseKey × ℕ) → ℕ → Prop
  /-- The case in the map. -/
  | known (name : ℕ) (before : PartialCase) (hlookup : lookup fragment.key e.parts = some name)
      (hcase : e.cases name = some before) :
      Origin e fragment nowMs name before e.parts e.nextCase
  /-- A new case. -/
  | new (hlookup : ∀ entry ∈ e.parts, entry.1 ≠ fragment.key) :
      Origin e fragment nowMs e.nextCase ⟨fragment, [], 0, nowMs, []⟩
        (e.parts ++ [(fragment.key, e.nextCase)]) (e.nextCase + 1)

/-- A name found under a key stands in the list of parts. -/
theorem mem_of_lookup {key : CaseKey} (h : lookup key e.parts = some name) :
    (key, name) ∈ e.parts := by
  unfold lookup at h
  obtain ⟨entry, hfind, hname⟩ := Option.map_eq_some_iff.mp h
  have hkey := List.find?_some hfind
  simp only [decide_eq_true_eq] at hkey
  have hmem := List.mem_of_find?_eq_some hfind
  rwa [← hkey, ← hname]

/-- Collecting a fragment counts a discontinuity, or puts the fragment into its case. -/
theorem collect_cases (h : Collected e) (arrival : ℕ) (fragment : QuietFragment)
    (expected : CorpusEntry) (nowMs : ℚ) :
    collect arrival fragment expected nowMs e = discontinuity e ∨
    ∃ name before parts nextCase, Origin e fragment nowMs name before parts nextCase ∧
      before.fragment.fragmentCount = fragment.fragmentCount ∧
      collect arrival fragment expected nowMs e =
        (let current := addFragment arrival fragment before
         let e := updateHighWater current nowMs
           (putCase arrival name fragment before parts nextCase e)
         if current.parts.length ≠ fragment.fragmentCount then e
         else startDigest name current fragment expected nowMs e) := by
  have hnone : lookup fragment.key e.parts = none → ∀ entry ∈ e.parts, entry.1 ≠ fragment.key := by
    intro hlookup entry hmem hkey
    unfold lookup at hlookup
    rw [Option.map_eq_none_iff, List.find?_eq_none] at hlookup
    exact hlookup entry hmem (by simpa using hkey)
  unfold collect
  cases hlookup : lookup fragment.key e.parts with
  | none =>
    simp only [Option.bind_eq_bind, Option.bind_none, Option.getD_none, if_true]
    split
    · exact .inl rfl
    · exact .inr ⟨_, _, _, _, .new (hnone hlookup), rfl, rfl⟩
  | some name =>
    obtain ⟨current, hcase, -⟩ := h.mapped _ (mem_of_lookup hlookup)
    simp only [Option.bind_eq_bind, Option.bind_some, hcase, Option.pure_def, Option.getD_some,
      reduceCtorEq, if_false]
    split
    · exact .inl rfl
    · next hsame =>
      have hcount : current.fragment.fragmentCount = fragment.fragmentCount := by
        by_contra hne
        exact hsame (.inl hne)
      exact .inr ⟨name, current, _, _, .known name current hlookup hcase, hcount, rfl⟩

/-- Adding a fragment keeps the description the case was opened with. -/
theorem addFragment_fragment : (addFragment arrival fragment before).fragment = before.fragment := by
  unfold addFragment
  split <;> rfl

/-- Adding a fragment records its arrival, behind the earlier ones. -/
theorem addFragment_arrivals :
    (addFragment arrival fragment before).arrivals = before.arrivals ++ [arrival] := by
  unfold addFragment
  split <;> rfl

theorem addFragment_parts_ne_nil : (addFragment arrival fragment before).parts ≠ [] := by
  unfold addFragment
  split
  · next hholds =>
    intro hnil
    unfold holds at hholds
    dsimp only at hnil
    rw [hnil] at hholds
    cases hholds
  · simp

/-- The case after a fragment was added to it. Its parts are the first arrivals of their indices,
and a repeat adds an arrival but no part. -/
theorem caseState_add (hpast : arrival < e.arrived)
    (hbefore : CaseState e before) (hkey : before.fragment.key = fragment.key)
    (hindex : fragment.fragmentIndex < before.fragment.fragmentCount) {e' : QuietReceiverEvidence}
    (harrived : e'.arrived = e.arrived)
    (hstored : e'.stored = if holds before fragment.fragmentIndex then e.stored
      else e.stored ++ [⟨arrival, fragment.key, fragment.fragmentIndex⟩]) :
    CaseState e' (addFragment arrival fragment before) := by
  have hold : ∀ part ∈ before.parts, ∃ other ∈ before.arrivals,
      ⟨other, before.fragment.key, part.1⟩ ∈ e'.stored := by
    intro part hmem
    obtain ⟨other, hother, hstoredBefore⟩ := hbefore.stored part hmem
    refine ⟨other, hother, ?_⟩
    rw [hstored]
    split
    · exact hstoredBefore
    · exact List.mem_append_left _ hstoredBefore
  refine ⟨?_, ?_, ?_, ?_⟩
  · intro other hmem
    rw [addFragment_arrivals] at hmem
    rw [harrived]
    rcases List.mem_append.mp hmem with hmem | hmem
    · exact hbefore.past other hmem
    · rw [List.mem_singleton.mp hmem]
      exact hpast
  · intro part hmem
    rw [addFragment_fragment, addFragment_arrivals]
    unfold addFragment at hmem
    split at hmem
    · obtain ⟨other, hother, hfound⟩ := hold part hmem
      exact ⟨other, List.mem_append_left _ hother, hfound⟩
    · next hholds =>
      rcases List.mem_append.mp hmem with hmem | hmem
      · obtain ⟨other, hother, hfound⟩ := hold part hmem
        exact ⟨other, List.mem_append_left _ hother, hfound⟩
      · rw [List.mem_singleton.mp hmem, hkey, hstored, if_neg hholds]
        exact ⟨arrival, List.mem_append_right _ (List.mem_singleton.mpr rfl),
          List.mem_append_right _ (List.mem_singleton.mpr rfl)⟩
  · unfold addFragment
    split
    · exact hbefore.nodup
    · next hholds =>
      dsimp only
      rw [List.map_append, List.nodup_append]
      refine ⟨hbefore.nodup, List.nodup_singleton _, ?_⟩
      intro index hmem last hlast
      obtain ⟨part, hpart, rfl⟩ := List.mem_map.mp hmem
      rw [List.mem_singleton.mp hlast]
      intro hsame
      exact hholds (List.any_eq_true.mpr ⟨part, hpart, by simpa using hsame⟩)
  · intro part hmem
    rw [addFragment_fragment]
    unfold addFragment at hmem
    split at hmem
    · exact hbefore.bound part hmem
    · rcases List.mem_append.mp hmem with hmem | hmem
      · exact hbefore.bound part hmem
      · rw [List.mem_singleton.mp hmem]
        exact hindex

/-- The case a fragment is collected into, before that. -/
theorem Origin.before_state (horigin : Origin e fragment nowMs name before parts nextCase)
    (h : Collected e) : CaseState e before ∧ before.fragment.key = fragment.key ∧
      (∀ other current, e.cases other = some current → other ≠ name →
        before.arrivals.Disjoint current.arrivals) := by
  cases horigin with
  | known _ _ hlookup hcase =>
    refine ⟨h.state name before hcase, ?_, fun other current hother hne => ?_⟩
    · obtain ⟨current, hmapped, hkey⟩ := h.mapped _ (mem_of_lookup hlookup)
      rw [hcase] at hmapped
      cases hmapped
      exact hkey
    · exact h.apart name other before current hcase hother hne.symm
  | new hlookup =>
    refine ⟨⟨by simp, by simp, by simp, by simp⟩, rfl, fun other current hother hne => ?_⟩
    simp

/-- What is not under way may take a fragment: its case has no digest and no record. -/
theorem Origin.open (horigin : Origin e fragment nowMs name before parts nextCase)
    (h : Collected e) (hunfilled : e.cases name = some before → ¬Full before) :
    (∀ digest ∈ e.pending, digest.caseName ≠ name) ∧
      ∀ record ∈ e.completions, record.caseName ≠ name := by
  cases horigin with
  | known _ _ hlookup hcase =>
    constructor
    · rintro digest hdigest rfl
      obtain ⟨current, hcurrent, -, hfull, -⟩ := h.digests digest hdigest
      rw [hcase] at hcurrent
      cases hcurrent
      exact hunfilled hcase hfull
    · rintro record hrecord rfl
      exact h.left record hrecord _ (mem_of_lookup hlookup) rfl
  | new hlookup =>
    constructor
    · intro digest hdigest hname
      obtain ⟨current, hcurrent, -⟩ := h.digests digest hdigest
      have hlt := h.named _ _ hcurrent
      omega
    · intro record hrecord hname
      obtain ⟨current, hcurrent, -⟩ := h.completed record hrecord
      have hlt := h.named _ _ hcurrent
      omega

section Put

/-- Putting a fragment into a case changes that case alone. -/
theorem cases_putCase_of_ne {other : ℕ} (hother : other ≠ name) :
    (putCase arrival name fragment before parts nextCase e).cases other = e.cases other :=
  Function.update_of_ne hother _ _

/-- The case then has the fragment. -/
theorem cases_putCase_self :
    (putCase arrival name fragment before parts nextCase e).cases name =
      some (addFragment arrival fragment before) :=
  Function.update_self _ _ _

/-- A case after a fragment was put is the one that got it, or is as it was. -/
theorem cases_putCase {other : ℕ} {current : PartialCase}
    (hcase : (putCase arrival name fragment before parts nextCase e).cases other = some current) :
    (other = name ∧ current = addFragment arrival fragment before) ∨
      (other ≠ name ∧ e.cases other = some current) := by
  by_cases hsame : other = name
  · rw [hsame, cases_putCase_self] at hcase
    exact .inl ⟨hsame, (Option.some.inj hcase).symm⟩
  · rw [cases_putCase_of_ne hsame] at hcase
    exact .inr ⟨hsame, hcase⟩

/-- What was stored stays stored. -/
theorem stored_putCase {stored : StoredFragment} (hmem : stored ∈ e.stored) :
    stored ∈ (putCase arrival name fragment before parts nextCase e).stored := by
  unfold putCase
  dsimp only
  split
  · exact hmem
  · exact List.mem_append_left _ hmem

variable (horigin : Origin e fragment nowMs name before parts nextCase) (h : Collected e)

include horigin h

/-- Names are still given in order. -/
theorem named_putCase {other : ℕ} {current : PartialCase}
    (hcase : (putCase arrival name fragment before parts nextCase e).cases other = some current) :
    other < nextCase := by
  rcases cases_putCase hcase with ⟨rfl, -⟩ | ⟨-, hold⟩
  · cases horigin with
    | known _ _ _ hknown => exact h.named _ _ hknown
    | new => exact Nat.lt_succ_self _
  · have hlt := h.named other current hold
    cases horigin with
    | known => exact hlt
    | new => exact Nat.lt_succ_of_lt hlt

/-- A key that was mapped is mapped to a case of that key. -/
theorem mapped_putCase_old {entry : CaseKey × ℕ} (hmem : entry ∈ e.parts) :
    ∃ current, (putCase arrival name fragment before parts nextCase e).cases entry.2 =
      some current ∧ current.fragment.key = entry.1 := by
  obtain ⟨current, hold, hentry⟩ := h.mapped entry hmem
  by_cases hsame : entry.2 = name
  · rw [hsame]
    refine ⟨_, cases_putCase_self, ?_⟩
    rw [addFragment_fragment]
    cases horigin with
    | known _ _ _ hknown =>
      rw [hsame, hknown] at hold
      cases hold
      exact hentry
    | new =>
      have hlt := h.named _ _ hold
      omega
  · rw [cases_putCase_of_ne hsame]
    exact ⟨current, hold, hentry⟩

/-- So is every key that is mapped now. -/
theorem mapped_putCase {entry : CaseKey × ℕ} (hmem : entry ∈ parts) :
    ∃ current, (putCase arrival name fragment before parts nextCase e).cases entry.2 =
      some current ∧ current.fragment.key = entry.1 := by
  have hold : entry ∈ e.parts → ∃ current,
      (putCase arrival name fragment before parts nextCase e).cases entry.2 = some current ∧
        current.fragment.key = entry.1 := mapped_putCase_old horigin h
  cases horigin with
  | known => exact hold hmem
  | new =>
    rcases List.mem_append.mp hmem with hmem | hmem
    · exact hold hmem
    · rw [List.mem_singleton.mp hmem]
      exact ⟨_, cases_putCase_self, by rw [addFragment_fragment]⟩

/-- No key is mapped twice then. -/
theorem keys_putCase : (parts.map (·.1)).Nodup := by
  cases horigin with
  | known => exact h.keys
  | new hlookup =>
    rw [List.map_append, List.nodup_append]
    refine ⟨h.keys, List.nodup_singleton _, ?_⟩
    intro key hmem last hlast
    obtain ⟨entry, hentry, rfl⟩ := List.mem_map.mp hmem
    rw [List.mem_singleton.mp hlast]
    exact hlookup entry hentry

/-- No arrival is in two cases then, if the one that is put was in none. -/
theorem apart_putCase
    (hfresh : ∀ other current, e.cases other = some current → arrival ∉ current.arrivals)
    {first second : ℕ} {left right : PartialCase}
    (hleft : (putCase arrival name fragment before parts nextCase e).cases first = some left)
    (hright : (putCase arrival name fragment before parts nextCase e).cases second = some right)
    (hne : first ≠ second) : left.arrivals.Disjoint right.arrivals := by
  have hnewApart : ∀ other current, e.cases other = some current → other ≠ name →
      (addFragment arrival fragment before).arrivals.Disjoint current.arrivals := by
    intro other current hother hne
    rw [addFragment_arrivals, List.disjoint_append_left]
    exact ⟨(horigin.before_state h).2.2 other current hother hne,
      List.singleton_disjoint.mpr (hfresh other current hother)⟩
  rcases cases_putCase hleft with ⟨rfl, rfl⟩ | ⟨hfirst, hold⟩ <;>
    rcases cases_putCase hright with ⟨hsame, rfl⟩ | ⟨hsecond, hold'⟩
  · exact absurd hsame.symm hne
  · exact hnewApart second right hold' hsecond
  · exact (hnewApart first left hold hfirst).symm
  · exact h.apart first second left right hold hold' hne

/-- The case that gets the fragment is in order, and so are the others. -/
theorem state_putCase (hpast : arrival < e.arrived)
    (hindex : fragment.fragmentIndex < before.fragment.fragmentCount) {other : ℕ}
    {current : PartialCase}
    (hcase : (putCase arrival name fragment before parts nextCase e).cases other = some current) :
    CaseState (putCase arrival name fragment before parts nextCase e) current := by
  obtain ⟨hstate, hkey, -⟩ := horigin.before_state h
  rcases cases_putCase hcase with ⟨-, rfl⟩ | ⟨-, hold⟩
  · exact caseState_add hpast hstate hkey hindex rfl rfl
  · obtain ⟨hpastOld, hstoredOld, hnodup, hbound⟩ := h.state other current hold
    refine ⟨hpastOld, fun part hmem => ?_, hnodup, hbound⟩
    obtain ⟨old, hold', hfound⟩ := hstoredOld part hmem
    exact ⟨old, hold', stored_putCase hfound⟩

/-- No mapped case has a record then, if the one that gets the fragment has none. -/
theorem left_putCase {record : Completion} (hmem : record ∈ e.completions)
    (hname : record.caseName ≠ name) : ∀ entry ∈ parts, entry.2 ≠ record.caseName := by
  intro entry hentry
  have hold := h.left record hmem
  cases horigin with
  | known => exact hold entry hentry
  | new =>
    rcases List.mem_append.mp hentry with hentry | hentry
    · exact hold entry hentry
    · rw [List.mem_singleton.mp hentry]
      exact hname.symm

/-- A fragment put into a case that is not full. -/
theorem collected_putCase (hpast : arrival < e.arrived)
    (hfresh : ∀ other current, e.cases other = some current → arrival ∉ current.arrivals)
    (hindex : fragment.fragmentIndex < before.fragment.fragmentCount)
    (hunfilled : e.cases name = some before → ¬Full before) :
    Collected (putCase arrival name fragment before parts nextCase e) := by
  obtain ⟨hdigests, hrecords⟩ := horigin.open h hunfilled
  refine ⟨fun _ _ => named_putCase horigin h, fun _ _ => state_putCase horigin h hpast hindex,
    fun _ _ _ _ => apart_putCase horigin h hfresh, fun _ => mapped_putCase horigin h,
    keys_putCase horigin h, ?_, h.digestsOnce, ?_, h.completedOnce, h.finished,
    fun record hmem => left_putCase horigin h hmem (hrecords record hmem)⟩
  · intro digest hmem
    obtain ⟨current, hcurrent, hrest⟩ := h.digests digest hmem
    rw [cases_putCase_of_ne (hdigests digest hmem)]
    exact ⟨current, hcurrent, hrest⟩
  · intro record hmem
    obtain ⟨current, hcurrent, harrivals, first, hfirst, hfound⟩ := h.completed record hmem
    rw [cases_putCase_of_ne (hrecords record hmem)]
    exact ⟨current, hcurrent, harrivals, first, hfirst, stored_putCase hfound⟩

end Put

/-- The digest of a case that has none yet and no record. -/
theorem collected_startDigest {current : PartialCase} (h : Collected e)
    (hcase : e.cases name = some current) (hkey : current.fragment.key = fragment.key)
    (hfull : Full current) (hparts : current.parts ≠ [])
    (hdigests : ∀ digest ∈ e.pending, digest.caseName ≠ name)
    (hrecords : ∀ record ∈ e.completions, record.caseName ≠ name) :
    Collected (startDigest name current fragment expected nowMs e) := by
  refine ⟨h.named, ?_, h.apart, h.mapped, h.keys, ?_, ?_, h.completed, h.completedOnce, ?_,
    h.left⟩
  · intro other held hheld
    obtain ⟨hpast, hstored, hnodup, hbound⟩ := h.state other held hheld
    exact ⟨hpast, hstored, hnodup, hbound⟩
  · intro digest hmem
    rcases List.mem_append.mp hmem with hmem | hmem
    · exact h.digests digest hmem
    · rw [List.mem_singleton.mp hmem]
      exact ⟨current, hcase, hkey, hfull, hparts⟩
  · unfold startDigest
    dsimp only
    rw [List.map_append, List.nodup_append]
    refine ⟨h.digestsOnce, List.nodup_singleton _, ?_⟩
    intro other hmem last hlast
    obtain ⟨digest, hdigest, rfl⟩ := List.mem_map.mp hmem
    rw [List.mem_singleton.mp hlast]
    exact hdigests digest hdigest
  · intro record hrecord digest hmem
    rcases List.mem_append.mp hmem with hmem | hmem
    · exact h.finished record hrecord digest hmem
    · rw [List.mem_singleton.mp hmem]
      exact hrecords record hrecord

end Collect

/-- A new receiver has collected nothing. -/
theorem collected_initial (session : ReceiverSession) : Collected { session } := by
  constructor <;> simp

/-- No fragment is collected into a case that is full, whose digest is under way. -/
def Unfilled (options : EvidenceOptions) (e : QuietReceiverEvidence) : EvidenceEvent → Prop
  | .accept raw _ => ∀ fragment expected name current,
      taken options e.session raw = some (fragment, expected) →
      lookup fragment.key e.parts = some name → e.cases name = some current → ¬Full current
  | _ => True

/-- Whether it is so can be looked up. -/
instance (options : EvidenceOptions) (e : QuietReceiverEvidence) :
    (event : EvidenceEvent) → Decidable (Unfilled options e event)
  | .accept raw _ => decidable_of_iff
      (∀ found ∈ (taken options e.session raw).toList,
        ∀ name ∈ (lookup found.1.key e.parts).toList,
          ∀ current ∈ (e.cases name).toList, current.parts.length ≠ current.fragment.fragmentCount)
      (by simp only [Option.mem_toList, Prod.forall, Unfilled, Full]; grind)
  | .flush _ => isTrue trivial
  | .reset _ _ => isTrue trivial
  | .digest _ => isTrue trivial

/-- A fragment that arrives while its case is open keeps the bookkeeping. It is refused, counted as
a discontinuity, or collected into its case. -/
theorem collected_accept (h : Collected e) (raw : Bytes) (nowMs : ℚ)
    (hunfilled : Unfilled options e (.accept raw nowMs)) :
    Collected (accept options raw nowMs e) := by
  have harrived : Collected { e with arrived := e.arrived + 1 } :=
    h.congr ⟨rfl, rfl, rfl, rfl, Nat.le_succ _, rfl, rfl⟩
  have hcounted : Collected (discontinuity { e with arrived := e.arrived + 1 }) :=
    harrived.congr ⟨rfl, rfl, rfl, rfl, Nat.le_refl _, rfl, rfl⟩
  rcases accept_cases options raw nowMs e with ⟨fragment, expected, htaken, haccept⟩ |
    ⟨-, haccept | haccept⟩
  · rw [haccept]
    rcases collect_cases harrived e.arrived fragment expected nowMs with hcollect |
      ⟨name, before, parts, nextCase, horigin, hcount, hcollect⟩
    · rw [hcollect]
      exact hcounted
    · rw [hcollect]
      have hnotFull : e.cases name = some before → ¬Full before := by
        intro hcase
        cases horigin with
        | known _ _ hlookup => exact hunfilled fragment expected name before htaken hlookup hcase
        | new =>
          have hlt := h.named _ _ hcase
          dsimp only at hlt
          omega
      have hindex : fragment.fragmentIndex < before.fragment.fragmentCount := by
        rw [hcount]
        exact taken_index htaken
      obtain ⟨-, hkey, -⟩ := horigin.before_state harrived
      have hput := collected_putCase horigin harrived (Nat.lt_succ_self e.arrived)
        (fun other current hcase hmem =>
          absurd ((h.state other current hcase).past _ hmem) (Nat.lt_irrefl _)) hindex hnotFull
      obtain ⟨hdigests, hrecords⟩ := horigin.open harrived hnotFull
      have hmeasured : Collected (updateHighWater (addFragment e.arrived fragment before) nowMs
          (putCase e.arrived name fragment before parts nextCase
            { e with arrived := e.arrived + 1 })) :=
        hput.congr ⟨rfl, rfl, rfl, rfl, Nat.le_refl _, rfl, rfl⟩
      dsimp only
      split
      · exact hmeasured
      · next hfull =>
        refine collected_startDigest hmeasured (Function.update_self _ _ _) ?_ ?_
          addFragment_parts_ne_nil hdigests hrecords
        · rw [addFragment_fragment]
          exact hkey
        · unfold Full
          rw [addFragment_fragment, hcount]
          exact not_not.mp hfull
  · rw [haccept]
    exact hcounted
  · rw [haccept]
    exact harrived

/-- A full case holds its first fragment. -/
theorem first_of_full {current : PartialCase} (h : CaseState e current) (hfull : Full current)
    (hparts : current.parts ≠ []) : ∃ part ∈ current.parts, part.1 = 0 := by
  have hsub : current.parts.map (·.1) ⊆ List.range current.fragment.fragmentCount := by
    intro index hmem
    obtain ⟨part, hpart, rfl⟩ := List.mem_map.mp hmem
    exact List.mem_range.mpr (h.bound part hpart)
  have hlength : (List.range current.fragment.fragmentCount).length ≤
      (current.parts.map (·.1)).length := by
    rw [List.length_range, List.length_map, hfull]
  have hperm := (List.subperm_of_subset h.nodup hsub).perm_of_length_le hlength
  have hpositive : 0 < current.fragment.fragmentCount := by
    rw [← hfull]
    exact List.length_pos_iff.mpr hparts
  have hzero := hperm.mem_iff.mpr (List.mem_range.mpr hpositive)
  obtain ⟨part, hpart, hindex⟩ := List.mem_map.mp hzero
  exact ⟨part, hpart, hindex⟩

/-- A digest that is there makes a record of its case. The key is freed and the digest taken off, so
it makes no second one. -/
theorem collected_completeDigest (h : Collected e) (number : ℕ) :
    Collected (completeDigest options number e) := by
  unfold completeDigest
  split
  · exact h
  · next digest hfind =>
    have hdigest := List.mem_of_find?_eq_some hfind
    obtain ⟨current, hcase, hkey, hfull, hparts⟩ := h.digests digest hdigest
    have hnumber : digest.number = number := by simpa using List.find?_some hfind
    rw [hcase]
    dsimp only
    have hother : ∀ other ∈ e.pending.filter (fun other => other.number ≠ number),
        other ∈ e.pending ∧ other.caseName ≠ digest.caseName := by
      intro other hmem
      obtain ⟨hpending, hne⟩ := List.mem_filter.mp hmem
      refine ⟨hpending, fun hsame => ?_⟩
      have heq := List.inj_on_of_nodup_map h.digestsOnce hpending hdigest hsame
      rw [heq, hnumber] at hne
      simp at hne
    have hlater : ∀ entry ∈ e.parts.filter (fun entry => entry.1 ≠ digest.fragment.key),
        entry ∈ e.parts ∧ entry.1 ≠ digest.fragment.key := by
      intro entry hmem
      obtain ⟨hentry, hne⟩ := List.mem_filter.mp hmem
      exact ⟨hentry, by simpa using hne⟩
    refine ⟨h.named, ?_, h.apart, ?_, ?_, ?_, ?_, ?_, ?_, ?_, ?_⟩
    · intro name held hheld
      obtain ⟨hpast, hstored, hnodup, hbound⟩ := h.state name held hheld
      exact ⟨hpast, hstored, hnodup, hbound⟩
    · intro entry hmem
      exact h.mapped entry (hlater entry hmem).1
    · exact h.keys.sublist (List.filter_sublist.map _)
    · intro other hmem
      exact h.digests other (hother other hmem).1
    · exact h.digestsOnce.sublist (List.filter_sublist.map _)
    · intro record hmem
      rcases List.mem_append.mp hmem with hmem | hmem
      · exact h.completed record hmem
      · rw [List.mem_singleton.mp hmem]
        obtain ⟨part, hpart, hzero⟩ := first_of_full (h.state _ _ hcase) hfull hparts
        obtain ⟨arrival, harrival, hstored⟩ := (h.state _ _ hcase).stored part hpart
        rw [hkey, hzero] at hstored
        exact ⟨current, hcase, fun _ hmem => hmem, arrival, harrival, hstored⟩
    · rw [List.map_append, List.nodup_append]
      refine ⟨h.completedOnce, List.nodup_singleton _, ?_⟩
      intro name hmem last hlast
      obtain ⟨record, hrecord, rfl⟩ := List.mem_map.mp hmem
      rw [List.mem_singleton.mp hlast]
      exact h.finished record hrecord digest hdigest
    · intro record hmem other hpending
      rcases List.mem_append.mp hmem with hmem | hmem
      · exact h.finished record hmem other (hother other hpending).1
      · rw [List.mem_singleton.mp hmem]
        exact (hother other hpending).2.symm
    · intro record hmem entry hentry
      rcases List.mem_append.mp hmem with hmem | hmem
      · exact h.left record hmem entry (hlater entry hentry).1
      · rw [List.mem_singleton.mp hmem]
        intro hname
        obtain ⟨held, hheld, hheldKey⟩ := h.mapped entry (hlater entry hentry).1
        rw [hname, hcase] at hheld
        cases hheld
        exact (hlater entry hentry).2 (hheldKey.symm.trans hkey)

/-- Measuring what is held changes the measurements only. -/
theorem foldl_updateHighWater (nowMs : ℚ) (held : List PartialCase) (e : QuietReceiverEvidence) :
    ∃ metrics, held.foldl (fun e current => updateHighWater current nowMs e) e =
      { e with metrics } := by
  induction held generalizing e with
  | nil => exact ⟨e.metrics, rfl⟩
  | cons current held ih =>
    obtain ⟨metrics, heq⟩ := ih (updateHighWater current nowMs e)
    exact ⟨metrics, heq⟩

/-- Flushing the partial cases keeps the bookkeeping. -/
theorem collected_flush (h : Collected e) (nowMs : ℚ) : Collected (flush nowMs e) := by
  unfold flush
  obtain ⟨metrics, hmeasured⟩ := foldl_updateHighWater nowMs (currentCases e) e
  rw [hmeasured]
  refine ⟨h.named, ?_, h.apart, ?_, ?_, h.digests, h.digestsOnce, h.completed, h.completedOnce,
    h.finished, ?_⟩
  · intro name held hheld
    obtain ⟨hpast, hstored, hnodup, hbound⟩ := h.state name held hheld
    exact ⟨hpast, hstored, hnodup, hbound⟩
  · intro entry hmem
    cases hmem
  · exact List.nodup_nil
  · intro record _ entry hmem
    cases hmem

/-- A reset empties the maps, whatever was collected before. -/
theorem collected_reset (h : Collected e) (session : ReceiverSession) (nowMs : ℚ) :
    Collected (reset session nowMs e) :=
  (collected_flush h nowMs).congr ⟨rfl, rfl, rfl, rfl, Nat.le_refl _, rfl, rfl⟩

/-- Every event keeps the receiver in order while no full case takes a fragment. -/
theorem collected_step (e : QuietReceiverEvidence) (event : EvidenceEvent)
    (hunfilled : Unfilled options e event) (h : Collected e) : Collected (step options e event) := by
  cases event with
  | accept raw nowMs => exact collected_accept h raw nowMs hunfilled
  | digest number => exact collected_completeDigest h number
  | flush nowMs => exact collected_flush h nowMs
  | reset session nowMs => exact collected_reset h session nowMs

/-- The event begins a new session. -/
def isReset : EvidenceEvent → Bool
  | .reset _ _ => true
  | _ => false

/-- At most one record is cold, and none before the first one. -/
def ColdOnce (e : QuietReceiverEvidence) : Prop :=
  (e.completions.filter (fun record => record.evidence.coldAcquired)).length ≤ 1 ∧
    (e.completedCase = false → e.completions = [])

/-- The end of a digest, kept or dropped, completes no case a second time. -/
theorem coldOnce_completeDigest (h : ColdOnce e) (number : ℕ) :
    ColdOnce (completeDigest options number e) := by
  unfold completeDigest
  split
  · exact h
  · split
    · exact h
    · refine ⟨?_, fun hopen => by cases hopen⟩
      have hfirst := h.2
      dsimp only
      rw [List.filter_append, List.length_append]
      cases hcompleted : e.completedCase with
      | false => simp [hfirst hcompleted, completeEvidence, hcompleted]
      | true =>
        have hwarm : (completeEvidence options ‹_› ‹_› e).coldAcquired = false := by
          unfold completeEvidence
          rw [hcompleted]
          rfl
        simp only [List.filter_cons, hwarm]
        exact h.1

/-- Once-only completion reads the completed cases and their records alone. -/
theorem coldOnce_of_eq {e' : QuietReceiverEvidence} (h : ColdOnce e)
    (hcompletions : e'.completions = e.completions) (hcompleted : e'.completedCase = e.completedCase) :
    ColdOnce e' := by
  unfold ColdOnce
  rw [hcompletions, hcompleted]
  exact h

/-- What arrives and what is given up completes nothing. -/
theorem completions_step (options : EvidenceOptions) (e : QuietReceiverEvidence)
    {event : EvidenceEvent} (hreset : isReset event = false)
    (hdigest : ∀ number, event ≠ .digest number) :
    (step options e event).completions = e.completions ∧
      (step options e event).completedCase = e.completedCase := by
  cases event with
  | accept raw nowMs =>
    change (accept options raw nowMs e).completions = _ ∧ (accept options raw nowMs e).completedCase = _
    rcases accept_cases options raw nowMs e with ⟨fragment, expected, -, haccept⟩ |
      ⟨-, haccept | haccept⟩
    · rw [haccept]
      unfold collect
      dsimp only
      generalize Option.getD _ _ = found
      split
      · exact ⟨rfl, rfl⟩
      · split <;> exact ⟨rfl, rfl⟩
    · rw [haccept]
      exact ⟨rfl, rfl⟩
    · rw [haccept]
      exact ⟨rfl, rfl⟩
  | digest number => exact absurd rfl (hdigest number)
  | flush nowMs =>
    change (flush nowMs e).completions = _ ∧ (flush nowMs e).completedCase = _
    unfold flush
    obtain ⟨metrics, hmeasured⟩ := foldl_updateHighWater nowMs (currentCases e) e
    rw [hmeasured]
    exact ⟨rfl, rfl⟩
  | reset session nowMs => cases hreset

/-- No event but a reset completes a case a second time. -/
theorem coldOnce_step (e : QuietReceiverEvidence) (event : EvidenceEvent)
    (hreset : isReset event = false) (h : ColdOnce e) : ColdOnce (step options e event) := by
  by_cases hdigest : ∃ number, event = .digest number
  · obtain ⟨number, rfl⟩ := hdigest
    exact coldOnce_completeDigest h number
  · obtain ⟨hcompletions, hcompleted⟩ := completions_step options e hreset
      (fun number heq => hdigest ⟨number, heq⟩)
    exact coldOnce_of_eq h hcompletions hcompleted

/-- Every fragment of the case was stored at one arrival only. -/
def CollectedOnce (key : CaseKey) (e : QuietReceiverEvidence) : Prop :=
  ∀ first ∈ e.stored, ∀ second ∈ e.stored, first.key = key → second.key = key →
    first.index = second.index → first.arrival = second.arrival

/-- Records of different cases share no arrival. -/
theorem Collected.disjoint (h : Collected e) :
    e.completions.Pairwise (fun left right => left.arrivals.Disjoint right.arrivals) := by
  refine (List.pairwise_map.mp h.completedOnce).imp_of_mem ?_
  intro left right hleft hright hne arrival hmem hmem'
  obtain ⟨first, hfirst, hfirstArrivals, -⟩ := h.completed left hleft
  obtain ⟨second, hsecond, hsecondArrivals, -⟩ := h.completed right hright
  exact h.apart _ _ first second hfirst hsecond hne (hfirstArrivals _ hmem) (hsecondArrivals _ hmem')

/-- A case whose fragments were stored once has one record. -/
theorem Collected.once (h : Collected e) {key : CaseKey} (honce : CollectedOnce key e) :
    (e.completions.filter (fun record => record.key = key)).length ≤ 1 := by
  have hapart := h.disjoint.filter (fun record => record.key = key)
  have hmem : ∀ record ∈ e.completions.filter (fun record => record.key = key),
      record ∈ e.completions ∧ record.key = key := by
    intro record hrecord
    obtain ⟨hrecord, hkey⟩ := List.mem_filter.mp hrecord
    exact ⟨hrecord, by simpa using hkey⟩
  generalize e.completions.filter (fun record => record.key = key) = records at hapart hmem
  match records with
  | [] => exact Nat.zero_le 1
  | [_] => exact Nat.le_refl 1
  | left :: right :: rest =>
    obtain ⟨hleft, hleftKey⟩ := hmem left List.mem_cons_self
    obtain ⟨hright, hrightKey⟩ := hmem right (List.mem_cons_of_mem _ List.mem_cons_self)
    obtain ⟨-, -, -, first, hfirst, hfirstStored⟩ := h.completed left hleft
    obtain ⟨-, -, -, second, hsecond, hsecondStored⟩ := h.completed right hright
    have hsame : first = second :=
      honce _ hfirstStored _ hsecondStored hleftKey hrightKey rfl
    rw [← hsame] at hsecond
    exact absurd hsecond ((List.pairwise_cons.mp hapart).1 right List.mem_cons_self hfirst)

/-- The records of a receiver are one for each collected case, and one of them is cold. -/
def EvidenceOnce (e : QuietReceiverEvidence) : Prop :=
  e.completions.Pairwise (fun left right => left.arrivals.Disjoint right.arrivals) ∧
    (∀ key, CollectedOnce key e →
      (e.completions.filter (fun record => record.key = key)).length ≤ 1) ∧
    (e.completions.filter (fun record => record.evidence.coldAcquired)).length ≤ 1

/-- In a session in which no fragment is collected into a case whose digest is under way, every
case is recorded once. -/
theorem evidence_once (options : EvidenceOptions) (session : ReceiverSession)
    (events : List EvidenceEvent) (hreset : ∀ event ∈ events, isReset event = false)
    (hunfilled : Along (step options) (Unfilled options) { session } events) :
    EvidenceOnce (run (step options) { session } events) := by
  have hcollected : Collected (run (step options) { session } events) :=
    invariant_along (step options) collected_step (collected_initial session) hunfilled
  have hcold : ColdOnce (run (step options) { session } events) := by
    have hstart : ColdOnce { session } := ⟨Nat.zero_le 1, fun _ => rfl⟩
    clear hcollected hunfilled
    generalize ({ session } : QuietReceiverEvidence) = e at hstart
    induction events generalizing e with
    | nil => exact hstart
    | cons event events ih =>
      refine ih (fun other hother => hreset other (List.mem_cons_of_mem event hother)) _ ?_
      exact coldOnce_step e event (hreset event List.mem_cons_self) hstart
  exact ⟨hcollected.disjoint, fun key honce => hcollected.once honce, hcold.1⟩

/-- A corpus of one case with one fragment, and a digest of sixteen characters. -/
def benchEvidence : EvidenceOptions :=
  ⟨[⟨"c", .aToB, 1, "0101010101010101"⟩], fun _ => "0101010101010101"⟩

/-- The session of a bench receiver. -/
def benchSession (epoch : ℕ) : ReceiverSession := ⟨epoch, .b, 0⟩

/-- The fragment of the bench case. -/
def benchFragment (epoch : UInt8) : Bytes :=
  quietMagic ++ [epoch, 0, 0, 0, 0, 0, 0, 0, 0, 1, 1, 0] ++ List.replicate 8 1 ++
    List.replicate 8 0 ++ [7]

/-- A corpus of one case with two fragments. -/
def benchPair : EvidenceOptions :=
  ⟨[⟨"c", .aToB, quietDataBytes + 1, "0101010101010101"⟩], fun _ => "0101010101010101"⟩

/-- A fragment of that case. -/
def benchHalf (index : UInt8) : Bytes :=
  quietMagic ++ [1, 0, 0, 0, 0, 0, 0, 0, index, 2] ++ writeWord 2 (quietDataBytes + 1) ++
    List.replicate 8 1 ++ List.replicate 8 0 ++ [7]

/-- The first fragment arrives twice and then the other one; after its digest the whole case is sent
again. -/
def benchArrivals : List EvidenceEvent :=
  [.accept (benchHalf 0) 0, .accept (benchHalf 0) 1, .accept (benchHalf 1) 2, .digest 0,
    .accept (benchHalf 0) 3, .accept (benchHalf 1) 4, .digest 1]

/-- Each of the two transmissions is recorded once. -/
theorem evidence_once_bench :
    (run (step benchPair) { session := benchSession 1 } benchArrivals).completions.map
        (·.arrivals) = [[0, 1, 2], [3, 4]] ∧
      EvidenceOnce (run (step benchPair) { session := benchSession 1 } benchArrivals) :=
  ⟨by decide +kernel, evidence_once benchPair (benchSession 1) benchArrivals (by decide +kernel)
    (by decide +kernel)⟩

/-- A fragment that arrives again before the digest is there is recorded again. -/
theorem not_evidence_once : ¬∀ (options : EvidenceOptions) (session : ReceiverSession)
    (events : List EvidenceEvent), (∀ event ∈ events, isReset event = false) →
    EvidenceOnce (run (step options) { session } events) := by
  intro h
  have honce := (h benchEvidence (benchSession 1)
    [.accept (benchFragment 1) 0, .accept (benchFragment 1) 1, .digest 0, .digest 1]
    (by simp [isReset])).1
  have hrecords : ((run (step benchEvidence) { session := benchSession 1 }
      [.accept (benchFragment 1) 0, .accept (benchFragment 1) 1, .digest 0, .digest 1]).completions.map
        (·.arrivals)) = [[0, 1], [0, 1]] := by decide +kernel
  have hpairwise := (List.pairwise_map (f := fun record : Completion => record.arrivals)).mpr honce
  rw [hrecords] at hpairwise
  simp at hpairwise

end Fipwave.EvidenceRecords
