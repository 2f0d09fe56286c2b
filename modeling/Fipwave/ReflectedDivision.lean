import Mathlib.Tactic

/-!
# Reflected polynomial division

A remainder of a fixed width is divided by a polynomial one bit at a time, the
lowest bit first. The division is linear in exclusive or. If the polynomial
has its highest bit set, no remainder but zero is lost by a shift, so that a
change of the input within as many consecutive bits as the remainder has is
always seen in it.
-/

namespace Fipwave.ReflectedDivision

variable {w : ℕ} {poly x y : BitVec w}

/-- One shift of the remainder. -/
def shift (poly x : BitVec w) : BitVec w := if x.getLsbD 0 then (x >>> 1) ^^^ poly else x >>> 1

/-- A bit as a word. -/
def bitWord (w : ℕ) (bit : Bool) : BitVec w := BitVec.setWidth w (BitVec.ofBool bit)

/-- Take one bit of the input in. -/
def feed (poly x : BitVec w) (bit : Bool) : BitVec w := shift poly (x ^^^ bitWord w bit)

/-- The remainder after a list of bits. -/
def remainder (poly x : BitVec w) (bits : List Bool) : BitVec w := bits.foldl (feed poly) x

/-- The bits of a list as a word, the first one lowest. -/
def pack (w : ℕ) : List Bool → BitVec w
  | [] => 0#w
  | bit :: bits => bitWord w bit ^^^ (pack w bits <<< 1)

/-- Two differences may be taken in either order. -/
theorem xor_right_comm (a b c : BitVec w) : a ^^^ b ^^^ c = a ^^^ c ^^^ b := by
  rw [BitVec.xor_assoc, BitVec.xor_comm b c, ← BitVec.xor_assoc]

/-- A shift is linear. -/
theorem shift_xor (poly x y : BitVec w) : shift poly (x ^^^ y) = shift poly x ^^^ shift poly y := by
  have hcancel : (x >>> 1) ^^^ poly ^^^ ((y >>> 1) ^^^ poly) = (x >>> 1) ^^^ (y >>> 1) := by
    rw [← BitVec.xor_assoc, xor_right_comm (x >>> 1) poly (y >>> 1), BitVec.xor_assoc,
      BitVec.xor_self, BitVec.xor_zero]
  unfold shift
  rw [BitVec.getLsbD_xor, BitVec.ushiftRight_xor_distrib]
  cases x.getLsbD 0 with
  | false =>
    cases y.getLsbD 0 with
    | false => rfl
    | true => exact BitVec.xor_assoc _ _ _
  | true =>
    cases y.getLsbD 0 with
    | false => exact xor_right_comm _ _ _
    | true => exact hcancel.symm

theorem shift_zero (poly : BitVec w) : shift poly 0#w = 0#w := by
  simp [shift]

/-- A polynomial with its highest bit set loses nothing but zero. -/
theorem shift_ne_zero (hpoly : poly.msb = true) (hx : x ≠ 0#w) : shift poly x ≠ 0#w := by
  intro hzero
  unfold shift at hzero
  split at hzero
  · have hmsb : ((x >>> 1) ^^^ poly).msb = true := by
      rw [BitVec.msb_xor, hpoly, BitVec.msb_ushiftRight]
      simp
    rw [hzero] at hmsb
    simp at hmsb
  · next hlow =>
    refine hx (BitVec.eq_of_getLsbD_eq (fun i hi => ?_))
    cases i with
    | zero => simpa using hlow
    | succ i =>
      have hbit := congrArg (fun word : BitVec w => word.getLsbD i) hzero
      simpa [Nat.add_comm] using hbit

/-- So do several shifts. -/
theorem iterate_shift_zero (poly : BitVec w) (n : ℕ) : (shift poly)^[n] 0#w = 0#w :=
  Function.iterate_fixed (shift_zero poly) n

/-- If the polynomial has its highest bit, shifts never come to zero. -/
theorem iterate_shift_ne_zero (hpoly : poly.msb = true) (hx : x ≠ 0#w) (n : ℕ) :
    (shift poly)^[n] x ≠ 0#w := by
  induction n with
  | zero => exact hx
  | succ n ih =>
    rw [Function.iterate_succ_apply']
    exact shift_ne_zero hpoly ih

/-- Several shifts are linear. -/
theorem iterate_shift_xor (poly x y : BitVec w) (n : ℕ) :
    (shift poly)^[n] (x ^^^ y) = (shift poly)^[n] x ^^^ (shift poly)^[n] y := by
  induction n with
  | zero => rfl
  | succ n ih => rw [Function.iterate_succ_apply', ih, shift_xor, Function.iterate_succ_apply',
      Function.iterate_succ_apply']

/-- A word that was moved up is moved down again. -/
theorem shift_shiftLeft (poly : BitVec w) (h : x.getLsbD (w - 1) = false) :
    shift poly (x <<< 1) = x := by
  have hlow : (x <<< 1).getLsbD 0 = false := by simp
  unfold shift
  rw [hlow]
  refine BitVec.eq_of_getLsbD_eq (fun i hi => ?_)
  simp only [Bool.false_eq_true, if_false, BitVec.getLsbD_ushiftRight, BitVec.getLsbD_shiftLeft]
  by_cases hlast : 1 + i < w
  · have hnot : ¬1 + i < 1 := by omega
    simp [hlast, hnot]
  · have heq : i = w - 1 := by omega
    rw [heq, h]
    have hbeyond : ¬1 + (w - 1) < w := by omega
    simp [hbeyond]

/-- Shifts undo a shift to the left of bits that have room. -/
theorem iterate_shiftLeft (poly : BitVec w) {n : ℕ} (hn : n ≤ w)
    (h : ∀ i, w - n ≤ i → x.getLsbD i = false) : (shift poly)^[n] (x <<< n) = x := by
  induction n with
  | zero => simp
  | succ n ih =>
    have htop : (x <<< n).getLsbD (w - 1) = false := by
      have hbit := h (w - 1 - n) (by omega)
      rw [BitVec.getLsbD_shiftLeft, hbit, Bool.and_false]
    have hshift : x <<< (n + 1) = (x <<< n) <<< 1 := BitVec.shiftLeft_add x n 1
    rw [Function.iterate_succ_apply, hshift, shift_shiftLeft poly htop]
    exact ih (by omega) (fun i hi => h i (by omega))

/-- Shifting a word is shifting its low bits, and moving the others down. -/
theorem iterate_shift_split (poly : BitVec w) {low : BitVec w} {n : ℕ} (hn : n ≤ w)
    (hlow : ∀ i, low.getLsbD i = (x.getLsbD i && decide (i < n))) :
    (shift poly)^[n] x = (shift poly)^[n] low ^^^ (x >>> n) := by
  have hhigh : ∀ i, w - n ≤ i → (x >>> n).getLsbD i = false := by
    intro i hi
    rw [BitVec.getLsbD_ushiftRight]
    exact BitVec.getLsbD_of_ge x (n + i) (by omega)
  have hsplit : x = low ^^^ ((x >>> n) <<< n) := by
    refine BitVec.eq_of_getLsbD_eq (fun i hi => ?_)
    rw [BitVec.getLsbD_xor, hlow, BitVec.getLsbD_shiftLeft, BitVec.getLsbD_ushiftRight]
    by_cases hbelow : i < n
    · simp [hbelow]
    · have hback : n + (i - n) = i := by omega
      simp [hbelow, hi, hback]
  conv_lhs => rw [hsplit]
  rw [iterate_shift_xor, iterate_shiftLeft poly hn hhigh]

/-- The word of a bit has it at its lowest place. -/
theorem getLsbD_bitWord (bit : Bool) (i : ℕ) :
    (bitWord w bit).getLsbD i = (decide (i < w) && decide (i = 0) && bit) := by
  unfold bitWord
  rw [BitVec.getLsbD_setWidth, BitVec.getLsbD_ofBool, Bool.and_assoc]

/-- The bits of a packed word are those of the list. -/
theorem getLsbD_pack (bits : List Bool) (i : ℕ) :
    (pack w bits).getLsbD i = (decide (i < w) && bits[i]?.getD false) := by
  induction bits generalizing i with
  | nil => simp [pack]
  | cons bit bits ih =>
    unfold pack
    rw [BitVec.getLsbD_xor, getLsbD_bitWord, BitVec.getLsbD_shiftLeft, ih]
    cases i with
    | zero => simp
    | succ i =>
      by_cases hi : i + 1 < w
      · have hprevious : i < w := by omega
        simp [hi, hprevious]
      · simp [hi]

/-- A list with a bit in it is not packed to zero. -/
theorem pack_ne_zero {bits : List Bool} (hlength : bits.length ≤ w) (h : true ∈ bits) :
    pack w bits ≠ 0#w := by
  obtain ⟨i, hi, hbit⟩ := List.getElem_of_mem h
  intro hzero
  have hget := getLsbD_pack (w := w) bits i
  have hwidth : i < w := by omega
  rw [hzero, List.getElem?_eq_getElem hi, hbit] at hget
  simp [hwidth] at hget

/-- As many bits as the remainder has can be taken in at once. -/
theorem remainder_eq (poly x : BitVec w) {bits : List Bool} (h : bits.length ≤ w) :
    remainder poly x bits = (shift poly)^[bits.length] (x ^^^ pack w bits) := by
  induction bits generalizing x with
  | nil => simp [remainder, pack]
  | cons bit bits ih =>
    rw [List.length_cons] at h
    have htop : (pack w bits).getLsbD (w - 1) = false := by
      have hnone : bits[w - 1]? = none := List.getElem?_eq_none (by omega)
      rw [getLsbD_pack, hnone, Option.getD_none, Bool.and_false]
    have hfirst : shift poly (x ^^^ pack w (bit :: bits)) = feed poly x bit ^^^ pack w bits := by
      rw [pack, ← BitVec.xor_assoc, shift_xor, shift_shiftLeft poly htop]
      rfl
    rw [List.length_cons, Function.iterate_succ_apply, hfirst]
    exact ih (feed poly x bit) (by omega)

/-- The remainder of two messages is that of the second one, from that of the first. -/
theorem remainder_append (poly x : BitVec w) (first second : List Bool) :
    remainder poly x (first ++ second) = remainder poly (remainder poly x first) second :=
  List.foldl_append

/-- Taking a bit in is linear in the register and the bit. -/
theorem feed_xor (poly x y : BitVec w) (left right : Bool) :
    feed poly (x ^^^ y) (left ^^ right) = feed poly x left ^^^ feed poly y right := by
  have hword : bitWord w (left ^^ right) = bitWord w left ^^^ bitWord w right := by
    refine BitVec.eq_of_getLsbD_eq (fun i _ => ?_)
    rw [BitVec.getLsbD_xor, getLsbD_bitWord, getLsbD_bitWord, getLsbD_bitWord]
    cases decide (i < w) && decide (i = 0) <;> rfl
  have hsplit : x ^^^ y ^^^ bitWord w (left ^^ right) =
      (x ^^^ bitWord w left) ^^^ (y ^^^ bitWord w right) := by
    rw [hword, ← BitVec.xor_assoc, ← BitVec.xor_assoc, xor_right_comm x y]
  unfold feed
  rw [hsplit, shift_xor]

/-- Changing the input changes the remainder by the remainder of the change. -/
theorem remainder_xor (poly x y : BitVec w) {bits pattern : List Bool}
    (h : bits.length = pattern.length) :
    remainder poly (x ^^^ y) (List.zipWith xor bits pattern) =
      remainder poly x bits ^^^ remainder poly y pattern := by
  induction bits generalizing x y pattern with
  | nil =>
    cases pattern with
    | nil => rfl
    | cons bit pattern => cases h
  | cons left bits ih =>
    cases pattern with
    | nil => cases h
    | cons right pattern =>
      have hfeed : feed poly (x ^^^ y) (left ^^ right) = feed poly x left ^^^ feed poly y right :=
        feed_xor poly x y left right
      change remainder poly (feed poly (x ^^^ y) (left ^^ right))
        (List.zipWith xor bits pattern) = _
      rw [hfeed]
      exact ih (feed poly x left) (feed poly y right) (Nat.succ.inj h)

/-- A message of zeros only shifts the register. -/
theorem remainder_replicate (poly x : BitVec w) (n : ℕ) :
    remainder poly x (List.replicate n false) = (shift poly)^[n] x := by
  induction n generalizing x with
  | zero => rfl
  | succ n ih =>
    have hfeed : feed poly x false = shift poly x := by
      have hzero : bitWord w false = 0#w := by simp [bitWord]
      rw [feed, hzero, BitVec.xor_zero]
    rw [List.replicate_succ, Function.iterate_succ_apply, ← hfeed]
    exact ih (feed poly x false)

/-- A list of bits none of which is set. -/
theorem eq_replicate_false {bits : List Bool} (h : true ∉ bits) :
    bits = List.replicate bits.length false := by
  refine List.eq_replicate_of_mem (fun bit hbit => ?_)
  cases bit with
  | false => rfl
  | true => exact absurd hbit h

/-- A pattern with a bit set, and all its set bits within as many consecutive ones as the
remainder has, leaves a remainder. -/
theorem remainder_ne_zero (hpoly : poly.msb = true) {pattern : List Bool} {start : ℕ}
    (hwithin : ∀ i, pattern[i]? = some true → start ≤ i ∧ i < start + w)
    (hset : true ∈ pattern) : remainder poly 0#w pattern ≠ 0#w := by
  have hsplit : pattern = pattern.take start ++
      ((pattern.drop start).take w ++ (pattern.drop start).drop w) := by
    rw [List.take_append_drop, List.take_append_drop]
  have hfirst : true ∉ pattern.take start := by
    intro hmem
    obtain ⟨i, hi⟩ := List.mem_iff_getElem?.mp hmem
    rw [List.getElem?_take] at hi
    split at hi
    · next hbefore =>
      have hlate := (hwithin i hi).1
      omega
    · cases hi
  have hlast : true ∉ (pattern.drop start).drop w := by
    intro hmem
    obtain ⟨i, hi⟩ := List.mem_iff_getElem?.mp hmem
    rw [List.getElem?_drop, List.getElem?_drop] at hi
    have hearly := (hwithin _ hi).2
    omega
  have hwindow : true ∈ (pattern.drop start).take w := by
    have hset' := hset
    rw [hsplit] at hset'
    rcases List.mem_append.mp hset' with hmem | hmem
    · exact absurd hmem hfirst
    · rcases List.mem_append.mp hmem with hmem | hmem
      · exact hmem
      · exact absurd hmem hlast
  have hfront := eq_replicate_false hfirst
  have hback := eq_replicate_false hlast
  rw [hsplit, remainder_append, remainder_append, hfront, hback, remainder_replicate,
    remainder_replicate, iterate_shift_zero, remainder_eq poly 0#w (List.length_take_le w _),
    BitVec.zero_xor]
  refine iterate_shift_ne_zero hpoly (iterate_shift_ne_zero hpoly ?_ _) _
  exact pack_ne_zero (List.length_take_le w _) hwindow

/-- A change within as many consecutive bits as the remainder has changes the remainder. -/
theorem remainder_burst (hpoly : poly.msb = true) (x : BitVec w) {bits pattern : List Bool}
    (hlength : bits.length = pattern.length) {start : ℕ}
    (hwithin : ∀ i, pattern[i]? = some true → start ≤ i ∧ i < start + w)
    (hset : true ∈ pattern) :
    remainder poly x (List.zipWith xor bits pattern) ≠ remainder poly x bits := by
  intro hsame
  have hxor := remainder_xor poly x 0#w hlength
  rw [BitVec.xor_zero, hsame] at hxor
  have hzero : remainder poly 0#w pattern = 0#w := by
    have hself := congrArg (remainder poly x bits ^^^ ·) hxor
    simpa [← BitVec.xor_assoc] using hself.symm
  exact remainder_ne_zero hpoly hwithin hset hzero

end Fipwave.ReflectedDivision
