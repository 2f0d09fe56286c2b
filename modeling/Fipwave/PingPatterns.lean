import Fipwave.TextPatterns

/-!
# What is read from the output of a ping

The output is searched for a summary of packets and for a time of the round
trip. Both patterns have one reading at a position, so a search finds the
first summary and the first time of the text, said here without patterns.
-/

namespace Fipwave.PingPatterns

open TextPatterns

section Letters

/-- Code units of a text. -/
abbrev Units := List UInt16

/-- Code units of a text without characters outside of the basic plane. -/
def units (text : String) : Units := text.toList.map (fun c => c.val.toUInt16)

/-- White space. -/
def isSpace (x : UInt16) : Bool :=
  x ∈ ([0x09, 0x0a, 0x0b, 0x0c, 0x0d, 0x20, 0xa0, 0x1680, 0x2028, 0x2029, 0x202f, 0x205f, 0x3000,
    0xfeff] : List UInt16) || (0x2000 ≤ x && x ≤ 0x200a)

/-- A decimal digit. -/
def isDigit (x : UInt16) : Bool := 0x30 ≤ x && x ≤ 0x39

/-- A decimal digit or a dot. -/
def isDecimal (x : UInt16) : Bool := isDigit x || x = 0x2e

/-- White space is no digit and no dot. -/
theorem isDecimal_of_isSpace {x : UInt16} (h : isSpace x = true) : isDecimal x = false := by
  have hcases : x ∈ ([0x09, 0x0a, 0x0b, 0x0c, 0x0d, 0x20, 0xa0, 0x1680, 0x2028, 0x2029, 0x202f,
      0x205f, 0x3000, 0xfeff] : List UInt16) ∨ 0x2000 ≤ x := by
    simp only [isSpace, Bool.or_eq_true, Bool.and_eq_true, decide_eq_true_eq] at h
    exact h.imp_right (fun hrange => hrange.1)
  have hknown : ([0x09, 0x0a, 0x0b, 0x0c, 0x0d, 0x20, 0xa0, 0x1680, 0x2028, 0x2029, 0x202f, 0x205f,
      0x3000, 0xfeff] : List UInt16).all (fun y => !isDecimal y) = true := by decide
  cases hcases with
  | inl hmem => simpa using List.all_eq_true.mp hknown x hmem
  | inr hlarge =>
    have hnat : 0x2000 ≤ x.toNat := UInt16.le_iff_toNat_le.mp hlarge
    have hdigit : isDigit x = false := by
      have hnot : ¬ x ≤ 0x39 := by
        rw [UInt16.le_iff_toNat_le]
        have hsmall : (0x39 : UInt16).toNat = 0x39 := rfl
        omega
      simp [isDigit, hnot]
    have hdot : x ≠ 0x2e := by
      rintro rfl
      have hsmall : (0x2e : UInt16).toNat = 0x2e := rfl
      omega
    simp [isDecimal, hdigit, hdot]

/-- A digit is no white space. -/
theorem isSpace_of_isDigit {x : UInt16} (h : isDigit x = true) : isSpace x = false := by
  by_contra hnot
  have hdecimal := isDecimal_of_isSpace (by simpa using hnot)
  simp [isDecimal, h] at hdecimal

end Letters

section Patterns

/-- `\d+` -/
def digits : Pattern UInt16 := atLeastOne isDigit

/-- `\d+(?:\.\d+)?` -/
def decimals : Pattern UInt16 := .chain digits (optional (.chain (word (units ".")) digits))

/-- `(\d+)\s+packets? transmitted,` -/
def transmitted : Pattern UInt16 :=
  sequence [.group 1 digits, atLeastOne isSpace, word (units "packet"), optional (word (units "s")),
    word (units " transmitted,")]

/-- `(?:packets? )?` -/
def packets : Pattern UInt16 :=
  optional (sequence [word (units "packet"), optional (word (units "s")), word (units " ")])

/-- `\s*(\d+)\s+(?:packets? )?received,` -/
def received : Pattern UInt16 :=
  sequence [.letters isSpace, .group 2 digits, atLeastOne isSpace, packets,
    word (units "received,")]

/-- `\s*(\d+(?:\.\d+)?)% packet loss` -/
def loss : Pattern UInt16 :=
  sequence [.letters isSpace, .group 3 decimals, word (units "% packet loss")]

/-- The pattern of a summary of packets. -/
def packetPattern : Pattern UInt16 := sequence [transmitted, received, loss]

/-- `time[=<]([0-9]+(?:\.[0-9]+)?)\s*ms` -/
def singleTime : Pattern UInt16 :=
  sequence [word (units "time"), .letter (fun x => x = 0x3d || x = 0x3c), .group 1 decimals,
    .letters isSpace, word (units "ms")]

/-- `=\s*[0-9.]+\/([0-9.]+)\/` -/
def averageTime : Pattern UInt16 :=
  sequence [word (units "="), .letters isSpace, atLeastOne isDecimal, word (units "/"),
    .group 2 (atLeastOne isDecimal), word (units "/")]

/-- The pattern of a time of the round trip. -/
def latencyPattern : Pattern UInt16 := .either singleTime averageTime

end Patterns

section OneReading

variable {next : List UInt16 → Prop} {outside : UInt16 → Bool} {second : Pattern UInt16}

/-- A constant text leads with its first letter. -/
theorem leads_units {text : String} {x : UInt16} {more : Units} (h : units text = x :: more) :
    Leads (.chain (word (units text)) second) next (fun y => y = x) := by
  rw [h]
  exact leads_chain leads_word (fun _ _ _ _ _ => trivial)

/-- An optional constant text leads with its first letter or with what follows. -/
theorem settled_optional {text : String} {x : UInt16} {more : Units} (h : units text = x :: more)
    (hdisjoint : ∀ y, outside y = true → decide (y = x) = false) :
    Settled (optional (word (units text))) (Begins outside) := by
  rw [h]
  exact settled_either settled_word settled_empty leads_word leads_empty hdisjoint

/-- A decimal number before a letter that is no digit and no dot has one reading. -/
theorem settled_decimals (hdisjoint : ∀ x, outside x = true → isDecimal x = false) :
    Settled decimals (Begins outside) := by
  have hdigit : ∀ x, outside x = true → isDigit x = false := by
    intro x hx
    have h := hdisjoint x hx
    simp only [isDecimal, Bool.or_eq_false_iff] at h
    exact h.1
  have hdot : ∀ x, outside x = true → decide (x = 0x2e) = false := by
    intro x hx
    have h := hdisjoint x hx
    simp only [isDecimal, Bool.or_eq_false_iff] at h
    exact h.2
  have hboth : ∀ x, (decide (x = 0x2e) || outside x) = true → isDigit x = false :=
    apart_or (apart_letter (by decide)) hdigit
  have hleads : Leads (.chain (word (units ".")) digits) (Begins outside) (fun x => x = 0x2e) :=
    leads_units rfl
  have hfraction : Settled (.chain (word (units ".")) digits) (Begins outside) :=
    settled_word_chain (settled_atLeastOne hdigit)
  exact settled_chain (settled_atLeastOne hboth)
    (settled_either hfraction settled_empty hleads leads_empty hdot)
    (leads_either hleads leads_empty)

/-- White space is apart from digits and dots. -/
theorem apart_space : ∀ x, isSpace x = true → isDecimal x = false :=
  fun _ h => isDecimal_of_isSpace h

/-- White space is apart from digits. -/
theorem apart_space_digit : ∀ x, isSpace x = true → isDigit x = false := by
  intro x hx
  have h := isDecimal_of_isSpace hx
  simp only [isDecimal, Bool.or_eq_false_iff] at h
  exact h.1

/-- The number of packets sent has one reading. -/
theorem settled_transmitted : Settled transmitted next := by
  have hend : Settled (sequence [word (units " transmitted,")]) next :=
    settled_word_chain settled_empty
  have hplural : Settled (sequence [optional (word (units "s")), word (units " transmitted,")])
      next :=
    settled_chain (settled_optional rfl (apart_letter (by decide))) hend (leads_units rfl)
  have hpacket : Settled (sequence [word (units "packet"), optional (word (units "s")),
      word (units " transmitted,")]) next :=
    settled_word_chain hplural
  have hspace : Settled (sequence [atLeastOne isSpace, word (units "packet"),
      optional (word (units "s")), word (units " transmitted,")]) next :=
    settled_chain (settled_atLeastOne (apart_letter (by decide))) hpacket (leads_units rfl)
  exact settled_chain (settled_group (settled_atLeastOne apart_space_digit)) hspace
    (leads_chain leads_atLeastOne (leads_units rfl))

/-- The word before the number of packets received leads with its first letter. -/
theorem leads_packets :
    Leads (sequence [packets, word (units "received,")]) next (fun x => x = 0x70 || x = 0x72) :=
  leads_chain (leads_either (leads_units rfl) leads_empty) (leads_units rfl)

/-- The word before the number of packets received has one reading. -/
theorem settled_packets : Settled (sequence [packets, word (units "received,")]) next := by
  have hword : Settled (sequence [word (units "packet"), optional (word (units "s")),
      word (units " ")]) (Begins (fun x => x = 0x72)) :=
    settled_word_chain (settled_chain (settled_optional rfl (apart_letter (by decide)))
      (settled_word_chain settled_empty) (leads_units rfl))
  exact settled_chain
    (settled_either hword settled_empty (leads_units rfl) leads_empty (apart_letter (by decide)))
    (settled_word_chain settled_empty) (leads_units rfl)

/-- The number of packets received has one reading. -/
theorem settled_received : Settled received next := by
  have hspace : Settled (sequence [atLeastOne isSpace, packets, word (units "received,")]) next :=
    settled_chain
      (settled_atLeastOne (apart_or (apart_letter (by decide)) (apart_letter (by decide))))
      settled_packets leads_packets
  have hdigits : Settled (sequence [.group 2 digits, atLeastOne isSpace, packets,
      word (units "received,")]) next :=
    settled_chain (settled_group (settled_atLeastOne apart_space_digit)) hspace
      (leads_chain leads_atLeastOne leads_packets)
  exact settled_chain (settled_letters (fun _ h => isSpace_of_isDigit h)) hdigits
    (leads_chain (leads_group leads_atLeastOne) (leads_chain leads_atLeastOne leads_packets))

/-- A decimal number leads with a digit. -/
theorem leads_decimals : Leads decimals (Begins outside) isDigit :=
  leads_chain leads_atLeastOne (leads_either (leads_units rfl) leads_empty)

/-- The share of packets lost has one reading. -/
theorem settled_loss : Settled loss next := by
  have hpercent : Settled (sequence [.group 3 decimals, word (units "% packet loss")]) next :=
    settled_chain (settled_group (settled_decimals (apart_letter (by decide))))
      (settled_word_chain settled_empty) (leads_units rfl)
  exact settled_chain (settled_letters (fun _ h => isSpace_of_isDigit h)) hpercent
    (leads_chain (leads_group leads_decimals) (leads_units rfl))

/-- A summary of packets has one reading. -/
theorem settled_packetPattern : Settled packetPattern next :=
  settled_chain settled_transmitted
    (settled_chain settled_received (settled_chain settled_loss settled_empty
      (fun _ _ _ _ _ => trivial)) (fun _ _ _ _ _ => trivial)) (fun _ _ _ _ _ => trivial)

/-- A single time has one reading. -/
theorem settled_singleTime : Settled singleTime next := by
  have hspace : Settled (sequence [.letters isSpace, word (units "ms")]) next :=
    settled_chain (settled_letters (apart_letter (by decide))) (settled_word_chain settled_empty)
      (leads_units rfl)
  have hleads : Leads (sequence [.letters isSpace, word (units "ms")]) next
      (fun x => isSpace x || x = 0x6d) :=
    leads_chain leads_letters (leads_units rfl)
  have hdecimals : Settled (sequence [.group 1 decimals, .letters isSpace, word (units "ms")])
      next :=
    settled_chain
      (settled_group (settled_decimals (apart_or apart_space (apart_letter (by decide)))))
      hspace hleads
  exact settled_word_chain (settled_chain settled_letter hdecimals (fun _ _ _ _ _ => trivial))

/-- An average time has one reading. -/
theorem settled_averageTime : Settled averageTime next := by
  have hgroup : Settled (sequence [.group 2 (atLeastOne isDecimal), word (units "/")]) next :=
    settled_chain (settled_group (settled_atLeastOne (apart_letter (by decide))))
      (settled_word_chain settled_empty) (leads_units rfl)
  have hfirst : Settled (sequence [atLeastOne isDecimal, word (units "/"),
      .group 2 (atLeastOne isDecimal), word (units "/")]) next :=
    settled_chain (settled_atLeastOne (apart_letter (by decide))) (settled_word_chain hgroup)
      (leads_units rfl)
  have hdisjoint : ∀ x, isDecimal x = true → isSpace x = false := by
    intro x hx
    by_contra hnot
    have hspace := apart_space x (by simpa using hnot)
    rw [hx] at hspace
    exact absurd hspace (by simp)
  exact settled_word_chain (settled_chain (settled_letters hdisjoint) hfirst
    (leads_chain leads_atLeastOne (leads_units rfl)))

/-- A time has one reading. -/
theorem settled_latencyPattern : Settled latencyPattern next :=
  settled_either settled_singleTime settled_averageTime (leads_units rfl) (leads_units rfl)
    (apart_letter (by decide))

end OneReading

section Readings

/-- Digits, one or more. -/
def Digits (text : Units) : Prop := text ≠ [] ∧ ∀ x ∈ text, isDigit x = true

/-- White space, or nothing. -/
def Spaces (text : Units) : Prop := ∀ x ∈ text, isSpace x = true

/-- Digits, and possibly a dot and digits. -/
def Decimals (text : Units) : Prop :=
  Digits text ∨ ∃ whole fraction, Digits whole ∧ Digits fraction ∧
    text = whole ++ (units "." ++ fraction)

/-- Digits and dots, one or more. -/
def Marks (text : Units) : Prop := text ≠ [] ∧ ∀ x ∈ text, isDecimal x = true

/-- The ending of the plural, or nothing. -/
def Plural (text : Units) : Prop := text = units "s" ∨ text = []

/-- What a summary of packets says. -/
structure PacketReading where
  /-- Packets sent. -/
  sent : Units
  /-- Packets received. -/
  received : Units
  /-- Packets lost, in percent. -/
  loss : Units

/-- The text starts with `… packets transmitted, … packets received, …% packet loss`. -/
def PacketSummary (text : Units) (reading : PacketReading) : Prop :=
  ∃ gap plural blank pause kind space rest,
    Digits reading.sent ∧ Digits reading.received ∧ Decimals reading.loss ∧
    (gap ≠ [] ∧ Spaces gap) ∧ Plural plural ∧ Spaces blank ∧ (pause ≠ [] ∧ Spaces pause) ∧
    ((∃ ending, Plural ending ∧ kind = units "packet" ++ (ending ++ units " ")) ∨ kind = []) ∧
    Spaces space ∧
    text = reading.sent ++ (gap ++ (units "packet" ++ (plural ++ (units " transmitted," ++
      (blank ++ (reading.received ++ (pause ++ (kind ++ (units "received," ++ (space ++
      (reading.loss ++ (units "% packet loss" ++ rest))))))))))))

/-- Where a time of the round trip was read. -/
inductive LatencyReading where
  /-- After the word for it. -/
  | single (time : Units)
  /-- The second of three numbers. -/
  | average (time : Units)

/-- The time. -/
def LatencyReading.time : LatencyReading → Units
  | .single time => time
  | .average time => time

/-- The text starts with a time: `time=… ms`, or `= …/…/`. -/
def RoundTripTime (text : Units) : LatencyReading → Prop
  | .single time => ∃ sign gap rest, (sign = units "=" ∨ sign = units "<") ∧ Decimals time ∧
      Spaces gap ∧ text = units "time" ++ (sign ++ (time ++ (gap ++ (units "ms" ++ rest))))
  | .average time => ∃ gap least rest, Spaces gap ∧ Marks least ∧ Marks time ∧
      text = units "=" ++ (gap ++ (least ++ (units "/" ++ (time ++ (units "/" ++ rest)))))

/-- The groups of a summary. -/
def PacketReading.groups (reading : PacketReading) : Groups UInt16 :=
  [(3, reading.loss), (2, reading.received), (1, reading.sent)]

/-- The groups of a time. -/
def LatencyReading.groups : LatencyReading → Groups UInt16
  | .single time => [(1, time)]
  | .average time => [(2, time)]

variable {text rest : Units} {groups : Groups UInt16}

/-- The pattern of digits spells them. -/
theorem spells_digits : Spells digits Digits := spells_atLeastOne

/-- The pattern of decimal numbers spells them. -/
theorem spells_decimals : Spells decimals Decimals := by
  have hdot : Spells (word (units ".")) (fun found => found = units ".") := spells_word
  have hfraction := spells_optional (spells_chain hdot spells_digits)
  have hsame : (fun found => ∃ left right, Digits left ∧ ((∃ dot fraction, dot = units "." ∧
      Digits fraction ∧ right = dot ++ fraction) ∨ right = []) ∧ found = left ++ right) =
      Decimals := by
    funext found
    apply propext
    constructor
    · rintro ⟨whole, right, hwhole, ⟨dot, fraction, rfl, hdigits, rfl⟩ | rfl, rfl⟩
      · exact Or.inr ⟨whole, fraction, hwhole, hdigits, rfl⟩
      · exact Or.inl (by rwa [List.append_nil])
    · rintro (hwhole | ⟨whole, fraction, hwhole, hdigits, rfl⟩)
      · exact ⟨found, [], hwhole, Or.inr rfl, (List.append_nil found).symm⟩
      · exact ⟨whole, units "." ++ fraction, hwhole,
          Or.inl ⟨units ".", fraction, rfl, hdigits, rfl⟩, rfl⟩
  rw [← hsame]
  exact spells_chain spells_digits hfraction

/-- The pattern of the optional word spells it. -/
theorem spells_packets : Spells packets (fun kind =>
    (∃ ending, Plural ending ∧ kind = units "packet" ++ (ending ++ units " ")) ∨ kind = []) := by
  have hfirst : Spells (word (units "packet")) (fun found => found = units "packet") := spells_word
  have hplural : Spells (optional (word (units "s"))) Plural := spells_optional spells_word
  have hlast : Spells (word (units " ")) (fun found => found = units " ") := spells_word
  have hword := spells_optional
    (spells_chain hfirst (spells_chain hplural (spells_chain hlast spells_empty)))
  intro text rest groups
  rw [packets]
  refine (hword text rest groups).trans (and_congr_left' (exists_congr (fun kind =>
    and_congr_left' (or_congr_left ?_))))
  constructor
  · rintro ⟨word, right, rfl, ⟨ending, last, hending, ⟨blank, none, rfl, rfl, rfl⟩, rfl⟩, rfl⟩
    exact ⟨ending, hending, by rw [List.append_nil]⟩
  · rintro ⟨ending, hending, rfl⟩
    exact ⟨_, _, rfl, ⟨ending, _, hending, ⟨units " ", [], rfl, rfl, rfl⟩, rfl⟩,
      by rw [List.append_nil]⟩

/-- What the number of packets sent is read from. -/
theorem reads_transmitted :
    Reads transmitted text rest groups ↔ ∃ sent gap plural, Digits sent ∧
      (gap ≠ [] ∧ Spaces gap) ∧ Plural plural ∧ groups = [(1, sent)] ∧
      text = sent ++ (gap ++ (units "packet" ++ (plural ++ (units " transmitted," ++ rest)))) := by
  constructor
  · intro h
    obtain ⟨sent, _, more, hsent, htext, h₁, hgroups⟩ := (reads_group_chain spells_digits).mp h
    obtain ⟨gap, _, hgap, rfl, h₂⟩ := (reads_spells_chain spells_atLeastOne).mp h₁
    obtain ⟨_, _, rfl, rfl, h₃⟩ := (reads_spells_chain spells_word).mp h₂
    obtain ⟨plural, _, hplural, rfl, h₄⟩ :=
      (reads_spells_chain (spells_optional spells_word)).mp h₃
    obtain ⟨_, _, rfl, rfl, h₅⟩ := (reads_spells_chain spells_word).mp h₄
    obtain ⟨rfl, rfl⟩ := reads_sequence_nil.mp h₅
    exact ⟨sent, gap, plural, hsent, hgap, hplural, hgroups, htext⟩
  · rintro ⟨sent, gap, plural, hsent, hgap, hplural, hgroups, htext⟩
    refine (reads_group_chain spells_digits).mpr ⟨sent, _, [], hsent, htext, ?_, hgroups⟩
    refine (reads_spells_chain spells_atLeastOne).mpr ⟨gap, _, hgap, rfl, ?_⟩
    refine (reads_spells_chain spells_word).mpr ⟨_, _, rfl, rfl, ?_⟩
    refine (reads_spells_chain (spells_optional spells_word)).mpr ⟨plural, _, hplural, rfl, ?_⟩
    refine (reads_spells_chain spells_word).mpr ⟨_, _, rfl, rfl, ?_⟩
    exact reads_sequence_nil.mpr ⟨rfl, rfl⟩

/-- What the number of packets received is read from. -/
theorem reads_received :
    Reads received text rest groups ↔ ∃ blank number pause kind, Spaces blank ∧ Digits number ∧
      (pause ≠ [] ∧ Spaces pause) ∧
      ((∃ ending, Plural ending ∧ kind = units "packet" ++ (ending ++ units " ")) ∨ kind = []) ∧
      groups = [(2, number)] ∧
      text = blank ++ (number ++ (pause ++ (kind ++ (units "received," ++ rest)))) := by
  constructor
  · intro h
    obtain ⟨blank, _, hblank, rfl, h₁⟩ := (reads_spells_chain spells_letters).mp h
    obtain ⟨number, _, more, hnumber, rfl, h₂, hgroups⟩ := (reads_group_chain spells_digits).mp h₁
    obtain ⟨pause, _, hpause, rfl, h₃⟩ := (reads_spells_chain spells_atLeastOne).mp h₂
    obtain ⟨kind, _, hkind, rfl, h₄⟩ := (reads_spells_chain spells_packets).mp h₃
    obtain ⟨_, _, rfl, rfl, h₅⟩ := (reads_spells_chain spells_word).mp h₄
    obtain ⟨rfl, rfl⟩ := reads_sequence_nil.mp h₅
    exact ⟨blank, number, pause, kind, hblank, hnumber, hpause, hkind, hgroups, rfl⟩
  · rintro ⟨blank, number, pause, kind, hblank, hnumber, hpause, hkind, hgroups, htext⟩
    refine (reads_spells_chain spells_letters).mpr ⟨blank, _, hblank, htext, ?_⟩
    refine (reads_group_chain spells_digits).mpr ⟨number, _, [], hnumber, rfl, ?_, hgroups⟩
    refine (reads_spells_chain spells_atLeastOne).mpr ⟨pause, _, hpause, rfl, ?_⟩
    refine (reads_spells_chain spells_packets).mpr ⟨kind, _, hkind, rfl, ?_⟩
    refine (reads_spells_chain spells_word).mpr ⟨_, _, rfl, rfl, ?_⟩
    exact reads_sequence_nil.mpr ⟨rfl, rfl⟩

/-- What the share of packets lost is read from. -/
theorem reads_loss :
    Reads loss text rest groups ↔ ∃ space share, Spaces space ∧ Decimals share ∧
      groups = [(3, share)] ∧ text = space ++ (share ++ (units "% packet loss" ++ rest)) := by
  constructor
  · intro h
    obtain ⟨space, _, hspace, rfl, h₁⟩ := (reads_spells_chain spells_letters).mp h
    obtain ⟨share, _, more, hshare, rfl, h₂, hgroups⟩ := (reads_group_chain spells_decimals).mp h₁
    obtain ⟨_, _, rfl, rfl, h₃⟩ := (reads_spells_chain spells_word).mp h₂
    obtain ⟨rfl, rfl⟩ := reads_sequence_nil.mp h₃
    exact ⟨space, share, hspace, hshare, hgroups, rfl⟩
  · rintro ⟨space, share, hspace, hshare, hgroups, htext⟩
    refine (reads_spells_chain spells_letters).mpr ⟨space, _, hspace, htext, ?_⟩
    refine (reads_group_chain spells_decimals).mpr ⟨share, _, [], hshare, rfl, ?_, hgroups⟩
    refine (reads_spells_chain spells_word).mpr ⟨_, _, rfl, rfl, ?_⟩
    exact reads_sequence_nil.mpr ⟨rfl, rfl⟩

/-- The pattern of a summary reads summaries. -/
theorem startsWith_packetPattern (text : Units) (groups : Groups UInt16) :
    StartsWith packetPattern text groups ↔
      ∃ reading, PacketSummary text reading ∧ groups = reading.groups := by
  constructor
  · rintro ⟨rest, middle, before, after, hsent, ⟨last, centre, later, hreceived,
      ⟨rest', percent, final, hloss, hend, hfinal⟩, hlater⟩, hgroups⟩
    obtain ⟨sent, gap, plural, hdigits, hgap, hplural, hbefore, rfl⟩ := reads_transmitted.mp hsent
    obtain ⟨blank, number, pause, kind, hblank, hnumber, hpause, hkind, hcentre, rfl⟩ :=
      reads_received.mp hreceived
    obtain ⟨space, share, hspace, hshare, hpercent, rfl⟩ := reads_loss.mp hloss
    refine ⟨⟨sent, number, share⟩, ⟨gap, plural, blank, pause, kind, space, rest', hdigits, hnumber,
      hshare, hgap, hplural, hblank, hpause, hkind, hspace, rfl⟩, ?_⟩
    rw [hgroups, hlater, hfinal, hend.2, hbefore, hcentre, hpercent]
    rfl
  · rintro ⟨⟨sent, number, share⟩, ⟨gap, plural, blank, pause, kind, space, rest, hdigits, hnumber,
      hshare, hgap, hplural, hblank, hpause, hkind, hspace, htext⟩, hgroups⟩
    have hsent := reads_transmitted.mpr ⟨sent, gap, plural, hdigits, hgap, hplural, rfl, htext⟩
    have hloss : Reads loss (space ++ (share ++ (units "% packet loss" ++ rest))) rest
        [(3, share)] :=
      reads_loss.mpr ⟨space, share, hspace, hshare, rfl, rfl⟩
    have hreceived : Reads received (blank ++ (number ++ (pause ++ (kind ++ (units "received," ++
        (space ++ (share ++ (units "% packet loss" ++ rest)))))))) _ [(2, number)] :=
      reads_received.mpr ⟨blank, number, pause, kind, hblank, hnumber, hpause, hkind, rfl, rfl⟩
    exact ⟨rest, _, _, _, hsent, ⟨_, _, _, hreceived, ⟨rest, _, [], hloss, ⟨rfl, rfl⟩, rfl⟩, rfl⟩,
      hgroups⟩

/-- The pattern of a time reads times. -/
theorem startsWith_latencyPattern (text : Units) (groups : Groups UInt16) :
    StartsWith latencyPattern text groups ↔
      ∃ reading, RoundTripTime text reading ∧ groups = reading.groups := by
  constructor
  · rintro ⟨rest, h | h⟩
    · obtain ⟨_, _, rfl, rfl, h₁⟩ := (reads_spells_chain spells_word).mp h
      obtain ⟨_, _, ⟨x, hx, rfl⟩, rfl, h₂⟩ := (reads_spells_chain spells_letter).mp h₁
      obtain ⟨time, _, more, htime, rfl, h₃, hgroups⟩ := (reads_group_chain spells_decimals).mp h₂
      obtain ⟨gap, _, hgap, rfl, h₄⟩ := (reads_spells_chain spells_letters).mp h₃
      obtain ⟨_, _, rfl, rfl, h₅⟩ := (reads_spells_chain spells_word).mp h₄
      obtain ⟨rfl, rfl⟩ := reads_sequence_nil.mp h₅
      have hsign : [x] = units "=" ∨ [x] = units "<" := by
        have hcases : x = 0x3d ∨ x = 0x3c := by simpa using hx
        rcases hcases with rfl | rfl
        · exact Or.inl rfl
        · exact Or.inr rfl
      exact ⟨.single time, ⟨[x], gap, _, hsign, htime, hgap, rfl⟩, hgroups⟩
    · obtain ⟨_, _, rfl, rfl, h₁⟩ := (reads_spells_chain spells_word).mp h
      obtain ⟨gap, _, hgap, rfl, h₂⟩ := (reads_spells_chain spells_letters).mp h₁
      obtain ⟨least, _, hleast, rfl, h₃⟩ := (reads_spells_chain spells_atLeastOne).mp h₂
      obtain ⟨_, _, rfl, rfl, h₄⟩ := (reads_spells_chain spells_word).mp h₃
      obtain ⟨time, _, more, htime, rfl, h₅, hgroups⟩ :=
        (reads_group_chain spells_atLeastOne).mp h₄
      obtain ⟨_, _, rfl, rfl, h₆⟩ := (reads_spells_chain spells_word).mp h₅
      obtain ⟨rfl, rfl⟩ := reads_sequence_nil.mp h₆
      exact ⟨.average time, ⟨gap, least, _, hgap, hleast, htime, rfl⟩, hgroups⟩
  · rintro ⟨reading, h, hgroups⟩
    cases reading with
    | single time =>
      obtain ⟨sign, gap, rest, hsign, htime, hgap, htext⟩ := h
      refine ⟨rest, Or.inl ((reads_spells_chain spells_word).mpr ⟨_, _, rfl, htext, ?_⟩)⟩
      refine (reads_spells_chain spells_letter).mpr ⟨sign, _, ?_, rfl, ?_⟩
      · rcases hsign with rfl | rfl
        · exact ⟨0x3d, by decide, rfl⟩
        · exact ⟨0x3c, by decide, rfl⟩
      refine (reads_group_chain spells_decimals).mpr ⟨time, _, [], htime, rfl, ?_, hgroups⟩
      refine (reads_spells_chain spells_letters).mpr ⟨gap, _, hgap, rfl, ?_⟩
      refine (reads_spells_chain spells_word).mpr ⟨_, _, rfl, rfl, ?_⟩
      exact reads_sequence_nil.mpr ⟨rfl, rfl⟩
    | average time =>
      obtain ⟨gap, least, rest, hgap, hleast, htime, htext⟩ := h
      refine ⟨rest, Or.inr ((reads_spells_chain spells_word).mpr ⟨_, _, rfl, htext, ?_⟩)⟩
      refine (reads_spells_chain spells_letters).mpr ⟨gap, _, hgap, rfl, ?_⟩
      refine (reads_spells_chain spells_atLeastOne).mpr ⟨least, _, hleast, rfl, ?_⟩
      refine (reads_spells_chain spells_word).mpr ⟨_, _, rfl, rfl, ?_⟩
      refine (reads_group_chain spells_atLeastOne).mpr ⟨time, _, [], htime, rfl, ?_, hgroups⟩
      refine (reads_spells_chain spells_word).mpr ⟨_, _, rfl, rfl, ?_⟩
      exact reads_sequence_nil.mpr ⟨rfl, rfl⟩

/-- Summaries with the same groups say the same. -/
theorem PacketReading.groups_injective : Function.Injective PacketReading.groups := by
  rintro ⟨sent, received, loss⟩ ⟨sent', received', loss'⟩ h
  simp_all [PacketReading.groups]

/-- Times with the same groups are the same. -/
theorem LatencyReading.groups_injective : Function.Injective LatencyReading.groups := by
  intro first second h
  cases first with
  | single time =>
    cases second with
    | single other => simp_all [LatencyReading.groups]
    | average other => simp [LatencyReading.groups] at h
  | average time =>
    cases second with
    | single other => simp [LatencyReading.groups] at h
    | average other => simp_all [LatencyReading.groups]

/-- A search for a summary finds the first one. -/
theorem exec_packetPattern (text : Units) :
    (exec packetPattern text = none ∧ ∀ reading, ¬ First PacketSummary text reading) ∨
      ∃ reading, exec packetPattern text = some reading.groups ∧
        ∀ other, First PacketSummary text other ↔ other = reading := by
  refine exec_cases PacketReading.groups_injective (fun groups => ?_)
  rw [exec_eq_some_iff settled_packetPattern]
  exact first_image startsWith_packetPattern

/-- A search for a time finds the first one. -/
theorem exec_latencyPattern (text : Units) :
    (exec latencyPattern text = none ∧ ∀ reading, ¬ First RoundTripTime text reading) ∨
      ∃ reading, exec latencyPattern text = some reading.groups ∧
        ∀ other, First RoundTripTime text other ↔ other = reading := by
  refine exec_cases LatencyReading.groups_injective (fun groups => ?_)
  rw [exec_eq_some_iff settled_latencyPattern]
  exact first_image startsWith_latencyPattern

end Readings

end Fipwave.PingPatterns
