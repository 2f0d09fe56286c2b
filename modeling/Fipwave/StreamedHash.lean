import Fipwave.ByteWords

/-!
# Hashing a message byte by byte

A hash function pads its message to blocks of 64 bytes, the last of which
ends with the number of message bits, and folds a compression function over
them. An implementation that is fed single bytes keeps the chaining value, the
bits compressed so far and the block it fills. Both give the same result,
whatever the compression function is.
-/

namespace Fipwave.StreamedHash

open ByteWords

variable {Chain : Type*} (compress : Chain → Bytes → Chain)

/-- The bytes of a number, most significant first. -/
def bigEndian (width value : ℕ) : Bytes := (writeWord width value).reverse

@[simp] theorem bigEndian_length (width value : ℕ) : (bigEndian width value).length = width := by
  simp [bigEndian]

/-- Fold the compression function over leading blocks. -/
def compressBlocks : ℕ → Chain → Bytes → Chain
  | 0, chain, _ => chain
  | count + 1, chain, bytes => compressBlocks count (compress chain (bytes.take 64)) (bytes.drop 64)

/-- What is appended to a message of a length. -/
def padding (length : ℕ) : Bytes :=
  0x80 :: List.replicate ((119 - length % 64) % 64) 0 ++ bigEndian 8 (8 * length)

/-- The chaining value after a padded message. -/
def hash (initial : Chain) (message : Bytes) : Chain :=
  compressBlocks compress ((message ++ padding message.length).length / 64) initial
    (message ++ padding message.length)

/-- A hash that is fed single bytes. -/
structure Stream (Chain : Type*) where
  /-- Chaining value. -/
  chain : Chain
  /-- Bits compressed. -/
  bits : ℕ
  /-- The block being filled. -/
  block : Bytes

/-- Nothing was fed yet. -/
def start (initial : Chain) : Stream Chain := ⟨initial, 0, []⟩

/-- Feed one byte. -/
def feed (s : Stream Chain) (byte : UInt8) : Stream Chain :=
  if (s.block ++ [byte]).length = 64 then ⟨compress s.chain (s.block ++ [byte]), s.bits + 512, []⟩
  else { s with block := s.block ++ [byte] }

/-- Fill a block with zeros up to a length. -/
def fill (length : ℕ) (block : Bytes) : Bytes := block ++ List.replicate (length - block.length) 0

/-- Pad what was fed and compress it. -/
def finish (s : Stream Chain) : Chain :=
  let bits := s.bits + s.block.length * 8
  let marked := s.block ++ [0x80]
  if marked.length > 56 then
    compress (compress s.chain (fill 64 marked)) (fill 56 [] ++ bigEndian 8 bits)
  else compress s.chain (fill 56 marked ++ bigEndian 8 bits)

theorem compressBlocks_succ (count : ℕ) (chain : Chain) (bytes : Bytes) :
    compressBlocks compress (count + 1) chain bytes =
      compressBlocks compress count (compress chain (bytes.take 64)) (bytes.drop 64) := rfl

/-- Whole blocks in front are compressed first. -/
theorem compressBlocks_append {count : ℕ} {front : Bytes} (h : front.length = 64 * count)
    (rest : ℕ) (chain : Chain) (back : Bytes) :
    compressBlocks compress (count + rest) chain (front ++ back) =
      compressBlocks compress rest (compressBlocks compress count chain front) back := by
  induction count generalizing front chain with
  | zero =>
    have hempty : front = [] := List.length_eq_zero_iff.mp h
    rw [hempty, Nat.zero_add, List.nil_append]
    rfl
  | succ count ih =>
    have hlong : 64 ≤ front.length := by omega
    have hrest : (front.drop 64).length = 64 * count := by
      rw [List.length_drop]
      omega
    have hcount : count + 1 + rest = count + rest + 1 := by omega
    rw [hcount, compressBlocks_succ, compressBlocks_succ, List.take_append_of_le_length hlong,
      List.drop_append_of_le_length hlong]
    exact ih hrest _

/-- Compressing one block is compressing the message of that block. -/
theorem compressBlocks_one (chain : Chain) {block : Bytes} (h : block.length = 64) :
    compressBlocks compress 1 chain block = compress chain block := by
  rw [compressBlocks_succ, List.take_of_length_le (Nat.le_of_eq h)]
  rfl

/-- What was fed is compressed up to the last unfinished block. -/
theorem foldl_feed (initial : Chain) (message : Bytes) :
    message.foldl (feed compress) (start initial) =
      ⟨compressBlocks compress (message.length / 64) initial
          (message.take (64 * (message.length / 64))),
        512 * (message.length / 64), message.drop (64 * (message.length / 64))⟩ := by
  induction message using List.reverseRecOn with
  | nil => rfl
  | append_singleton message byte ih =>
    rw [List.foldl_append, ih, List.foldl_cons, List.foldl_nil]
    generalize hcount : message.length / 64 = count
    have hfront : 64 * count ≤ message.length := by omega
    have htake : (message.take (64 * count)).length = 64 * count := by
      rw [List.length_take]
      omega
    have hblock : (message.drop (64 * count) ++ [byte]).length =
        message.length - 64 * count + 1 := by
      rw [List.length_append, List.length_drop]
      rfl
    have hlength : (message ++ [byte]).length = message.length + 1 := by simp
    unfold feed
    dsimp only
    by_cases hfull : (message.drop (64 * count) ++ [byte]).length = 64
    · have hnext : (message ++ [byte]).length / 64 = count + 1 := by omega
      have hwhole : 64 * (count + 1) = (message ++ [byte]).length := by omega
      have hsplit : message ++ [byte] =
          message.take (64 * count) ++ (message.drop (64 * count) ++ [byte]) := by
        rw [← List.append_assoc, List.take_append_drop]
      rw [if_pos hfull, hnext, hwhole, List.take_length, List.drop_length]
      conv_rhs => rw [hsplit]
      rw [compressBlocks_append compress htake, compressBlocks_one compress _ hfull]
      rfl
    · have hsame : (message ++ [byte]).length / 64 = count := by omega
      rw [if_neg hfull, hsame, List.take_append_of_le_length hfront,
        List.drop_append_of_le_length hfront]

/-- A hash that is fed a message byte by byte is the hash of the message. The full blocks have been
compressed; what is left is padded as the message would be. -/
theorem finish_feed (initial : Chain) (message : Bytes) :
    finish compress (message.foldl (feed compress) (start initial)) =
      hash compress initial message := by
  rw [foldl_feed]
  generalize hcount : message.length / 64 = count
  have hfront : 64 * count ≤ message.length := by omega
  have htake : (message.take (64 * count)).length = 64 * count := by
    rw [List.length_take]
    omega
  have hdrop : (message.drop (64 * count)).length = message.length - 64 * count := List.length_drop
  have hbits : 512 * count + (message.drop (64 * count)).length * 8 = 8 * message.length := by omega
  have hsplit : message ++ padding message.length =
      message.take (64 * count) ++ (message.drop (64 * count) ++ padding message.length) := by
    rw [← List.append_assoc, List.take_append_drop]
  have hpadding : (padding message.length).length = 9 + (119 - message.length % 64) % 64 := by
    simp [padding]
    omega
  have hrest : message.length - 64 * count = message.length % 64 := by omega
  have htotal : (message ++ padding message.length).length =
      message.length + 9 + (119 - message.length % 64) % 64 := by
    rw [List.length_append, hpadding]
    omega
  unfold finish hash
  dsimp only
  rw [hbits, htotal, hsplit]
  have hmarked : (message.drop (64 * count) ++ [0x80]).length = message.length % 64 + 1 := by
    rw [List.length_append, hdrop, hrest]
    rfl
  by_cases hlong : (message.drop (64 * count) ++ [0x80]).length > 56
  · rw [if_pos hlong]
    have hzeros : (119 - message.length % 64) % 64 = (63 - message.length % 64) + 56 := by omega
    have hblocks : (message.length + 9 + (119 - message.length % 64) % 64) / 64 =
        count + (1 + 1) := by omega
    have hlast : message.drop (64 * count) ++ padding message.length =
        fill 64 (message.drop (64 * count) ++ [0x80]) ++
          (fill 56 [] ++ bigEndian 8 (8 * message.length)) := by
      unfold padding fill
      rw [hmarked, hzeros, List.replicate_add]
      simp
    have hfirst : (fill 64 (message.drop (64 * count) ++ [0x80])).length = 64 * 1 := by
      unfold fill
      rw [List.length_append, hmarked, List.length_replicate]
      omega
    have hsecond : (fill 56 [] ++ bigEndian 8 (8 * message.length)).length = 64 := by
      simp [fill]
    rw [hblocks, compressBlocks_append compress htake, hlast, compressBlocks_append compress hfirst,
      compressBlocks_one compress _ hfirst, compressBlocks_one compress _ hsecond]
  · rw [if_neg hlong]
    have hzeros : (119 - message.length % 64) % 64 = 55 - message.length % 64 := by omega
    have hblocks : (message.length + 9 + (119 - message.length % 64) % 64) / 64 = count + 1 := by
      omega
    have hlast : message.drop (64 * count) ++ padding message.length =
        fill 56 (message.drop (64 * count) ++ [0x80]) ++ bigEndian 8 (8 * message.length) := by
      unfold padding fill
      rw [hmarked, hzeros]
      simp
    have hwhole : (fill 56 (message.drop (64 * count) ++ [0x80]) ++
        bigEndian 8 (8 * message.length)).length = 64 := by
      unfold fill
      rw [List.length_append, List.length_append, hmarked, List.length_replicate, bigEndian_length]
      omega
    rw [hblocks, compressBlocks_append compress htake, hlast, compressBlocks_one compress _ hwhole]

end Fipwave.StreamedHash
