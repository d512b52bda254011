import Tpm2.Algorithm.Mutating
import Tpm2.Crypto.Hash

/-! Key derivation: a key is as many bytes as are asked for of a stream of digests over a counter
and the same further inputs. -/

namespace Tpm2

open ByteCodec Mutating

/-- The keyed digests of libcrypto: the HMAC over all bytes that a signer is fed, which has the size
of the digest. Making the key, the signer or the signature may fail. -/
structure Libcrypto.Mac (crypto : Libcrypto) where
  hmac : TpmHash → Bytes → Bytes → Except TpmCryptoError Bytes
  length_hmac : ∀ {alg key data tag}, hmac alg key data = .ok tag → tag.length = crypto.size alg

namespace TpmHash

/-- `split_label_and_terminator`. -/
def splitLabelAndTerminator (label : Bytes) : Bytes × Bytes :=
  if label.getLast? = some 0 then (label, []) else (label, [0])

/-- `checked_kdf_key_bits`: the number of bytes of a key, and the number of its bits in big-endian
order. -/
def checkedKdfKeyBits (keyBits : Nat) : Except TpmCryptoError (Nat × Bytes) :=
  if keyBits ≤ u32Max then
    .ok ((keyBits + 7) / 8, toBytes 4 keyBits)
  else
    .error (.invalidKdfKeyBits keyBits)

/-- `output[start..start + bytes.len()].copy_from_slice(bytes)`. -/
def copyFromSlice? (start : Nat) (bytes output : Bytes) : Option Bytes :=
  if start + bytes.length ≤ output.length then
    some (output.take start ++ bytes ++ output.drop (start + bytes.length))
  else
    none

/-- The variables of the block loops. -/
structure KdfVars where
  counter : UInt32
  offset : Nat

/-- `counter + 1`, which panics on an overflow. -/
def nextCounter? (counter : UInt32) : Option UInt32 :=
  if counter.toNat + 1 ≤ u32Max then some (counter + 1) else none

/-- One round of the block loops: the next block is copied to the output as far as it is needed. -/
def kdfRound (block : UInt32 → Mutating TpmCryptoError Bytes Bytes) (keyBytes : Nat)
    (vars : KdfVars) : Mutating TpmCryptoError Bytes KdfVars := do
  let block ← block vars.counter
  let remaining := keyBytes - vars.offset
  let toTake := min remaining block.length
  modify? (copyFromSlice? vars.offset (block.take toTake))
  let counter ← orPanic (nextCounter? vars.counter)
  return ⟨counter, vars.offset + toTake⟩

/-- `while offset < key_bytes`, with `rounds` blocks at most: it returns `none` when it would go on
then. -/
def kdfLoop (block : UInt32 → Mutating TpmCryptoError Bytes Bytes) (keyBytes rounds : Nat) :
    Mutating TpmCryptoError Bytes (Option Nat) := do
  let ended ← loop (fun vars => decide (keyBytes ≤ vars.offset)) (kdfRound block keyBytes) rounds
    ⟨1, 0⟩
  return ended.map fun _ => keyBytes

section
variable (crypto : Libcrypto) (mac : crypto.Mac) (alg : TpmHash)

/-- The signature that `kdfa_into` puts into `block[..block_len]`. -/
def kdfaBlock (hmacKey : Bytes) (chunks : List Bytes) : Mutating TpmCryptoError Bytes Bytes := do
  let blockLen := crypto.size alg
  let _ ← orPanic (if blockLen ≤ maxDigestSize then some () else none)
  result (mac.hmac alg hmacKey chunks.flatten)

/-- Implements `KDFa` into the output buffer. -/
def kdfaInto (hmacKey label contextA contextB : Bytes) (keyBits rounds : Nat) :
    Mutating TpmCryptoError Bytes (Option Nat) :=
  if hmacKey = [] then
    throw .keyIsEmpty
  else do
    let (keyBytes, keyBitsBytes) ← result (checkedKdfKeyBits keyBits)
    let output ← get
    result (checkOutputLen output keyBytes)
    let (labelData, terminator) := splitLabelAndTerminator label
    kdfLoop (fun counter => kdfaBlock crypto mac alg hmacKey
      [toBytes 4 counter.toNat, labelData, terminator, contextA, contextB, keyBitsBytes])
      keyBytes rounds

/-- Implements `KDFe` into the output buffer. -/
def kdfeInto (z label contextU contextV : Bytes) (keyBits rounds : Nat) :
    Mutating TpmCryptoError Bytes (Option Nat) := do
  let (keyBytes, _) ← result (checkedKdfKeyBits keyBits)
  let output ← get
  result (checkOutputLen output keyBytes)
  let (labelData, terminator) := splitLabelAndTerminator label
  kdfLoop (fun counter => result (crypto.hash alg
    [toBytes 4 counter.toNat, z, labelData, terminator, contextU, contextV].flatten))
    keyBytes rounds

end

/-- What a program leaves in a new buffer of `size` bytes, cut to the length that it returns. It has
to have rounds enough. -/
def inBuffer {σ : Type} (size : Nat) (program : Mutating TpmCryptoError Bytes (Option Nat)) :
    Mutating TpmCryptoError σ Bytes :=
  match program.outcome (List.replicate size 0) with
  | some (.ok (some len), buffer) => return buffer.take len
  | some (.error e, _) => throw e
  | _ => orPanic none

section
variable {σ : Type} (crypto : Libcrypto) (mac : crypto.Mac) (alg : TpmHash)

/-- Computes an HMAC digest over a series of data chunks. -/
def hmac (key : Bytes) (dataChunks : List Bytes) : Except TpmCryptoError Bytes :=
  if key = [] then .error .keyIsEmpty else mac.hmac alg key dataChunks.flatten

/-- Implements the `KDFa` key derivation function: a key has as many blocks as bytes at most. -/
def kdfa (hmacKey label contextA contextB : Bytes) (keyBits : Nat) :
    Mutating TpmCryptoError σ Bytes := do
  let (keyBytes, _) ← result (checkedKdfKeyBits keyBits)
  inBuffer keyBytes (kdfaInto crypto mac alg hmacKey label contextA contextB keyBits keyBytes)

/-- Implements the `KDFe` key derivation function. -/
def kdfe (z label contextU contextV : Bytes) (keyBits : Nat) :
    Mutating TpmCryptoError σ Bytes := do
  let (keyBytes, _) ← result (checkedKdfKeyBits keyBits)
  inBuffer keyBytes (kdfeInto crypto alg z label contextU contextV keyBits keyBytes)

end

/-- The first blocks of a stream, with the counters from 1 on. -/
def kdfBlocks (block : Nat → Bytes) (count : Nat) : Bytes :=
  (List.range count).flatMap fun i => block (i + 1)

/-- The program derives a key: it fills the first `n` bytes of an output buffer that has as many
with the first bytes of the blocks, of which `n` are enough, and leaves the bytes behind them as
they are; it leaves a smaller buffer as it is. -/
def DerivesKey (program : Nat → Mutating TpmCryptoError Bytes (Option Nat)) (n : Nat)
    (block : Nat → Bytes) : Prop :=
  ∀ output : Bytes,
    (n ≤ output.length → ∀ rounds, n ≤ rounds → (program rounds).Ends output (.ok (some n))
      ((kdfBlocks block n).take n ++ output.drop n)) ∧
    (output.length < n → ∀ rounds, (program rounds).Ends output
      (.error (.bufferTooSmall n output.length)) output)

theorem DerivesKey.of_eq {program program' : Nat → Mutating TpmCryptoError Bytes (Option Nat)}
    {n : Nat} {block : Nat → Bytes} (derives : DerivesKey program' n block)
    (same : ∀ rounds, program rounds = program' rounds) : DerivesKey program n block := by
  rw [funext same]
  exact derives

/-- The label with its terminator, which is appended to a label that does not end in one. -/
def terminated (label : Bytes) : Bytes := if label.getLast? = some 0 then label else label ++ [0]

theorem splitLabelAndTerminator_append (label : Bytes) :
    (splitLabelAndTerminator label).1 ++ (splitLabelAndTerminator label).2 = terminated label := by
  unfold splitLabelAndTerminator terminated
  split
  · exact List.append_nil label
  · rfl

section
variable {block : Nat → Bytes} {size : Nat}

theorem kdfBlocks_succ (block : Nat → Bytes) (count : Nat) :
    kdfBlocks block (count + 1) = kdfBlocks block count ++ block (count + 1) := by
  rw [kdfBlocks, List.range_succ, List.flatMap_append, List.flatMap_singleton]
  rfl

theorem length_kdfBlocks (sized : ∀ i, (block i).length = size) (count : Nat) :
    (kdfBlocks block count).length = count * size := by
  induction count with
  | zero => simp [kdfBlocks]
  | succ count ih =>
      rw [kdfBlocks_succ, List.length_append, ih, sized, Nat.succ_mul]

/-- More blocks do not change the bytes that are there. -/
theorem take_kdfBlocks (sized : ∀ i, (block i).length = size) {n count more : Nat}
    (enough : n ≤ count * size) (le : count ≤ more) :
    (kdfBlocks block more).take n = (kdfBlocks block count).take n := by
  obtain ⟨others, rfl⟩ := Nat.exists_eq_add_of_le le
  clear le
  induction others with
  | zero => rfl
  | succ others ih =>
      have within : n ≤ (kdfBlocks block (count + others)).length := by
        rw [length_kdfBlocks sized]
        exact Nat.le_trans enough (Nat.mul_le_mul_right size (Nat.le_add_right ..))
      rw [← Nat.add_assoc, kdfBlocks_succ, List.take_append_of_le_length within, ih]

/-- What holds at the start of each round: whole blocks are there, or all that is needed. -/
structure Filled (block : Nat → Bytes) (size n : Nat) (output : Bytes) (vars : KdfVars)
    (buffer : Bytes) : Prop where
  count_le : vars.counter.toNat - 1 ≤ n
  counter_pos : 0 < vars.counter.toNat
  offset_eq : vars.offset = min n ((vars.counter.toNat - 1) * size)
  buffer_eq : buffer = (kdfBlocks block (vars.counter.toNat - 1)).take vars.offset ++
    output.drop vars.offset

theorem copyFromSlice?_append (front : Bytes) {bytes rest : Bytes}
    (room : bytes.length ≤ rest.length) :
    copyFromSlice? front.length bytes (front ++ rest) =
      some (front ++ bytes ++ rest.drop bytes.length) := by
  have inRange : front.length + bytes.length ≤ (front ++ rest).length := by
    rw [List.length_append]
    omega
  rw [copyFromSlice?, if_pos inRange, List.take_left, ← List.drop_drop, List.drop_left]

/-- A round puts the next block behind the blocks that are there. -/
theorem kdfRound_ends {nextBlock : UInt32 → Mutating TpmCryptoError Bytes Bytes}
    {n : Nat} {output buffer : Bytes} {vars : KdfVars} (positive : 0 < size)
    (sized : ∀ i, (block i).length = size) (small : n < u32Max)
    (computes : ∀ counter s, (nextBlock counter).Ends s (.ok (block counter.toNat)) s)
    (room : n ≤ output.length) (filled : Filled block size n output vars buffer)
    (goes : vars.offset < n) :
    ∃ next buffer', (kdfRound nextBlock n vars).Ends buffer (.ok next) buffer' ∧
      Filled block size n output next buffer' ∧ n - next.offset < n - vars.offset := by
  obtain ⟨count_le, counter_pos, offset_eq, buffer_eq⟩ := filled
  obtain ⟨count, counted⟩ : ∃ count, vars.counter.toNat = count + 1 :=
    Nat.exists_eq_succ_of_ne_zero (Nat.ne_of_gt counter_pos)
  rw [counted, Nat.add_sub_cancel] at count_le offset_eq buffer_eq
  have whole : vars.offset = count * size := by omega
  have length := length_kdfBlocks sized count
  have front : (kdfBlocks block count).take vars.offset = kdfBlocks block count := by
    rw [whole, ← length, List.take_length]
  rw [front] at buffer_eq
  -- the block, as far as it is needed, goes behind the blocks that are there
  obtain ⟨toTake, take_eq⟩ : ∃ toTake, toTake = min (n - vars.offset) size := ⟨_, rfl⟩
  have taken : ((block (count + 1)).take toTake).length = toTake := by
    rw [List.length_take, sized]
    omega
  have copied : copyFromSlice? vars.offset ((block (count + 1)).take toTake) buffer =
      some (kdfBlocks block count ++ (block (count + 1)).take toTake ++
        output.drop (vars.offset + toTake)) := by
    have fits : ((block (count + 1)).take toTake).length ≤ (output.drop vars.offset).length := by
      rw [taken, List.length_drop]
      omega
    have placed := copyFromSlice?_append (kdfBlocks block count) fits
    rw [length, ← whole, ← buffer_eq, taken, List.drop_drop] at placed
    exact placed
  -- the counter is at most the number of bytes, and so does not overflow
  have below : count < n := by
    have le : count * 1 ≤ count * size := Nat.mul_le_mul_left count positive
    omega
  have counts : nextCounter? vars.counter = some (vars.counter + 1) :=
    if_pos (by omega)
  have counted' : (vars.counter + 1).toNat = count + 1 + 1 := by
    rw [u32Max] at small
    rw [UInt32.toNat_add, counted]
    exact Nat.mod_eq_of_lt (show count + 1 + 1 < 2 ^ 32 by omega)
  have ran : (kdfRound nextBlock n vars).Ends buffer
      (.ok ⟨vars.counter + 1, vars.offset + toTake⟩)
      (kdfBlocks block count ++ (block (count + 1)).take toTake ++
        output.drop (vars.offset + toTake)) := by
    have computed := computes vars.counter buffer
    rw [counted] at computed
    refine computed.bind ?_
    dsimp only
    rw [sized, ← take_eq]
    exact (ends_modify? copied).bind ((ends_orPanic counts _).bind (ends_pure _ _))
  refine ⟨_, _, ran, ?_, ?_⟩
  · constructor
    case count_le =>
      dsimp only
      omega
    case counter_pos =>
      dsimp only
      omega
    case offset_eq =>
      dsimp only
      rw [counted', Nat.add_sub_cancel, Nat.succ_mul]
      omega
    case buffer_eq =>
      dsimp only
      rw [counted', Nat.add_sub_cancel, kdfBlocks_succ, whole, ← length,
        List.take_length_add_append]
  · dsimp only
    omega

theorem filled_start (block : Nat → Bytes) (size n : Nat) (output : Bytes) :
    Filled block size n output ⟨1, 0⟩ output where
  count_le := Nat.zero_le n
  counter_pos := Nat.one_pos
  offset_eq := by
    change 0 = min n (0 * size)
    omega
  buffer_eq := rfl

/-- The loop fills the bytes that are asked for. -/
theorem kdfLoop_ends {nextBlock : UInt32 → Mutating TpmCryptoError Bytes Bytes}
    {n rounds : Nat} {output : Bytes} (positive : 0 < size)
    (sized : ∀ i, (block i).length = size) (small : n < u32Max)
    (computes : ∀ counter s, (nextBlock counter).Ends s (.ok (block counter.toNat)) s)
    (room : n ≤ output.length) (enough : n ≤ rounds) :
    (kdfLoop nextBlock n rounds).Ends output (.ok (some n))
      ((kdfBlocks block n).take n ++ output.drop n) := by
  have round (vars : KdfVars) (s : Bytes) (filled : Filled block size n output vars s)
      (goes : decide (n ≤ vars.offset) = false) : ∃ next t,
      (kdfRound nextBlock n vars).Ends s (.ok next) t ∧ Filled block size n output next t ∧
        n - next.offset < n - vars.offset :=
    kdfRound_ends positive sized small computes room filled
      (Nat.not_le.mp (of_decide_eq_false goes))
  obtain ⟨last, buffer, ended, done, filled⟩ :=
    loop_ends round rounds (filled_start block size n output) (Nat.le_trans (Nat.sub_le ..) enough)
  have all : n ≤ last.offset := of_decide_eq_true done
  have offset := filled.offset_eq
  have exactly : last.offset = n := by omega
  have blocks := take_kdfBlocks sized (show n ≤ (last.counter.toNat - 1) * size by omega)
    filled.count_le
  have contents := filled.buffer_eq
  rw [exactly, ← blocks] at contents
  rw [← contents]
  exact ended.bind (ends_pure _ _)

/-- A loop behind the check of the buffer derives a key. -/
theorem derivesKey_of_blocks {nextBlock : UInt32 → Mutating TpmCryptoError Bytes Bytes} {n : Nat}
    (positive : 0 < size) (sized : ∀ i, (block i).length = size) (small : n < u32Max)
    (computes : ∀ counter s, (nextBlock counter).Ends s (.ok (block counter.toNat)) s) :
    DerivesKey (fun rounds => do
      let output ← get
      result (checkOutputLen output n)
      kdfLoop nextBlock n rounds) n block := by
  intro output
  constructor
  · intro room rounds enough
    have checked : checkOutputLen output n = .ok () := if_neg (Nat.not_lt.mpr room)
    refine (ends_get output).bind (Ends.bind (a := ()) ?_
      (kdfLoop_ends positive sized small computes room enough))
    rw [checked]
    exact ends_result _ _
  · intro short rounds
    have failed : checkOutputLen output n = .error (.bufferTooSmall n output.length) :=
      if_pos short
    refine (ends_get output).bind (Ends.bind_error ?_ _)
    rw [failed]
    exact ends_result _ _

end

/-- The key size in bytes is within the counter's range. -/
theorem checkedKdfKeyBits_of_le {keyBits : Nat} (fits : keyBits ≤ u32Max) :
    checkedKdfKeyBits keyBits = .ok ((keyBits + 7) / 8, toBytes 4 keyBits) ∧
      (keyBits + 7) / 8 < u32Max := by
  refine ⟨if_pos fits, ?_⟩
  rw [u32Max] at fits ⊢
  omega

section
variable {crypto : Libcrypto} {mac : crypto.Mac} {alg : TpmHash} {keyBits : Nat}

/-- The input of a block of `KDFa`. -/
def kdfaInput (label contextA contextB : Bytes) (keyBits counter : Nat) : Bytes :=
  toBytes 4 counter ++ terminated label ++ contextA ++ contextB ++ toBytes 4 keyBits

/-- The input of a block of `KDFe`. -/
def kdfeInput (z label contextU contextV : Bytes) (counter : Nat) : Bytes :=
  toBytes 4 counter ++ z ++ terminated label ++ contextU ++ contextV

theorem kdfaInto_derives {hmacKey : Bytes} {hmac : Bytes → Bytes}
    (computes : ∀ data, mac.hmac alg hmacKey data = .ok (hmac data))
    (positive : 0 < crypto.size alg) (within : crypto.size alg ≤ maxDigestSize)
    (nonempty : hmacKey ≠ []) (fits : keyBits ≤ u32Max) (label contextA contextB : Bytes) :
    DerivesKey (kdfaInto crypto mac alg hmacKey label contextA contextB keyBits)
      ((keyBits + 7) / 8)
      (fun counter => hmac (kdfaInput label contextA contextB keyBits counter)) := by
  obtain ⟨checked, small⟩ := checkedKdfKeyBits_of_le fits
  have sized (i : Nat) : (hmac (kdfaInput label contextA contextB keyBits i)).length =
      crypto.size alg := mac.length_hmac (computes _)
  have blocks (counter : UInt32) (s : Bytes) :
      (kdfaBlock crypto mac alg hmacKey [toBytes 4 counter.toNat,
        (splitLabelAndTerminator label).1, (splitLabelAndTerminator label).2, contextA, contextB,
        toBytes 4 keyBits]).Ends s
      (.ok (hmac (kdfaInput label contextA contextB keyBits counter.toNat))) s := by
    have input : [toBytes 4 counter.toNat, (splitLabelAndTerminator label).1,
        (splitLabelAndTerminator label).2, contextA, contextB, toBytes 4 keyBits].flatten =
        kdfaInput label contextA contextB keyBits counter.toNat := by
      simp [kdfaInput, ← splitLabelAndTerminator_append]
    refine (ends_orPanic (if_pos within) s).bind ?_
    rw [input, computes]
    exact ends_result _ _
  refine (derivesKey_of_blocks positive sized small blocks).of_eq fun rounds => ?_
  unfold kdfaInto
  rw [if_neg nonempty, checked]
  rfl

theorem kdfeInto_derives {hash : Bytes → Bytes}
    (computes : ∀ data, crypto.hash alg data = .ok (hash data))
    (positive : 0 < crypto.size alg) (fits : keyBits ≤ u32Max) (z label contextU contextV : Bytes) :
    DerivesKey (kdfeInto crypto alg z label contextU contextV keyBits) ((keyBits + 7) / 8)
      (fun counter => hash (kdfeInput z label contextU contextV counter)) := by
  obtain ⟨checked, small⟩ := checkedKdfKeyBits_of_le fits
  have sized (i : Nat) : (hash (kdfeInput z label contextU contextV i)).length =
      crypto.size alg := crypto.length_hash (computes _)
  have blocks (counter : UInt32) (s : Bytes) :
      (result (crypto.hash alg [toBytes 4 counter.toNat, z, (splitLabelAndTerminator label).1,
        (splitLabelAndTerminator label).2, contextU, contextV].flatten)).Ends s
      (.ok (hash (kdfeInput z label contextU contextV counter.toNat))) s := by
    have input : [toBytes 4 counter.toNat, z, (splitLabelAndTerminator label).1,
        (splitLabelAndTerminator label).2, contextU, contextV].flatten =
        kdfeInput z label contextU contextV counter.toNat := by
      simp [kdfeInput, ← splitLabelAndTerminator_append]
    rw [input, computes]
    exact ends_result _ _
  refine (derivesKey_of_blocks positive sized small blocks).of_eq fun rounds => ?_
  unfold kdfeInto
  rw [checked]
  rfl

end

/-- The first bytes of the blocks, as many as a key of some bits has. -/
def kdfKey (block : Nat → Bytes) (keyBits : Nat) : Bytes :=
  (kdfBlocks block ((keyBits + 7) / 8)).take ((keyBits + 7) / 8)

section
variable {σ : Type} {block : Nat → Bytes} {size keyBits : Nat}

theorem length_kdfKey (positive : 0 < size) (sized : ∀ i, (block i).length = size)
    (keyBits : Nat) : (kdfKey block keyBits).length = (keyBits + 7) / 8 := by
  rw [kdfKey, List.length_take, length_kdfBlocks sized]
  exact Nat.min_eq_left (Nat.le_mul_of_pos_right _ positive)

/-- A buffer with room for a key is cut to the key. -/
theorem inBuffer_ends {program : Nat → Mutating TpmCryptoError Bytes (Option Nat)}
    (derives : DerivesKey program ((keyBits + 7) / 8) block) (positive : 0 < size)
    (sized : ∀ i, (block i).length = size) {room : Nat} (fits : (keyBits + 7) / 8 ≤ room) (s : σ) :
    (inBuffer room (program ((keyBits + 7) / 8))).Ends s (.ok (kdfKey block keyBits)) s := by
  have filled := (derives (List.replicate room 0)).1 (by rwa [List.length_replicate]) _
    (Nat.le_refl _)
  have length := length_kdfKey positive sized keyBits
  unfold inBuffer
  unfold Ends at filled
  rw [filled]
  have cut : (kdfKey block keyBits ++ (List.replicate room 0).drop ((keyBits + 7) / 8)).take
      ((keyBits + 7) / 8) = kdfKey block keyBits := List.take_left' length
  show (pure _ : Mutating TpmCryptoError σ Bytes).Ends s _ s
  unfold kdfKey at cut ⊢
  rw [cut]
  exact ends_pure _ _

variable {crypto : Libcrypto} {mac : crypto.Mac} {alg : TpmHash}

theorem kdfa_ends {hmacKey : Bytes} {hmac : Bytes → Bytes}
    (computes : ∀ data, mac.hmac alg hmacKey data = .ok (hmac data))
    (positive : 0 < crypto.size alg) (within : crypto.size alg ≤ maxDigestSize)
    (nonempty : hmacKey ≠ []) (fits : keyBits ≤ u32Max) (label contextA contextB : Bytes) (s : σ) :
    (kdfa crypto mac alg hmacKey label contextA contextB keyBits).Ends s
      (.ok (kdfKey (fun counter => hmac (kdfaInput label contextA contextB keyBits counter))
        keyBits)) s := by
  have derives := kdfaInto_derives computes positive within nonempty fits label contextA contextB
  have checked := (checkedKdfKeyBits_of_le fits).1
  unfold kdfa
  rw [checked]
  exact inBuffer_ends derives positive (fun i => mac.length_hmac (computes _)) (Nat.le_refl _) s

/-- An empty key derives nothing. -/
theorem kdfa_nonempty {hmacKey label contextA contextB bytes : Bytes} {s t : σ}
    (ends : (kdfa crypto mac alg hmacKey label contextA contextB keyBits).Ends s (.ok bytes) t) :
    hmacKey ≠ [] := by
  rintro rfl
  obtain ⟨⟨keyBytes, keyBitsBytes⟩, u, -, ends⟩ := ends.of_bind
  have failed : (inBuffer keyBytes (kdfaInto crypto mac alg [] label contextA contextB keyBits
      keyBytes) : Mutating TpmCryptoError σ Bytes).Ends u (.error .keyIsEmpty) u := rfl
  cases (ends.unique failed).1

end

/-- Key derivation fills exactly the requested bytes: with an HMAC and a hash that compute blocks of
a fixed size, both functions write the first bytes of the blocks with the counters from 1 on over
their inputs, for every key size of 32 bits; no round of the loop panics, and as many rounds as
there are bytes are enough. An empty HMAC key is refused before anything is written. -/
theorem kdf_fills_requested_bytes (crypto : Libcrypto) (mac : crypto.Mac) (alg : TpmHash)
    (positive : 0 < crypto.size alg) (within : crypto.size alg ≤ maxDigestSize)
    (hmac : Bytes → Bytes → Bytes) (hash : Bytes → Bytes)
    (signs : ∀ key data, key ≠ [] → mac.hmac alg key data = .ok (hmac key data))
    (hashes : ∀ data, crypto.hash alg data = .ok (hash data)) (keyBits : Nat)
    (fits : keyBits ≤ u32Max) (label contextA contextB : Bytes) :
    (∀ hmacKey, hmacKey ≠ [] →
      DerivesKey (kdfaInto crypto mac alg hmacKey label contextA contextB keyBits)
        ((keyBits + 7) / 8)
        (fun counter => hmac hmacKey (kdfaInput label contextA contextB keyBits counter))) ∧
    (∀ output rounds, (kdfaInto crypto mac alg [] label contextA contextB keyBits rounds).Ends
      output (.error .keyIsEmpty) output) ∧
    ∀ z, DerivesKey (kdfeInto crypto alg z label contextA contextB keyBits) ((keyBits + 7) / 8)
      (fun counter => hash (kdfeInput z label contextA contextB counter)) := by
  refine ⟨fun hmacKey nonempty => ?_, fun output rounds => ?_, fun z => ?_⟩
  · exact kdfaInto_derives (fun data => signs hmacKey data nonempty) positive within nonempty fits
      label contextA contextB
  · exact ends_throw _ _
  · exact kdfeInto_derives hashes positive fits z label contextA contextB

/-- SHA-256 of the inputs of a sample `KDFe`, and HMAC-SHA256 with the key `k` of those of a sample
`KDFa`. -/
def sampleBlocks : List (Bytes × Nat) :=
  [([0, 0, 0, 1, 122, 88, 0, 89, 90],
      0xde8a88622f2d4760cb8197eddcceb8c90c25037e570aab4afe9bc7864650ad27),
    ([0, 0, 0, 2, 122, 88, 0, 89, 90],
      0x8d5898e590d68724fcdd8614d0879692ea543c546bb61cadfdf62f2d59959103),
    ([0, 0, 0, 1, 88, 0, 89, 90, 0, 0, 1, 1],
      0x6ece2c0e558ec96078ed31f7e551b4f88a116e614781105fb9c3b673ab42227c),
    ([0, 0, 0, 2, 88, 0, 89, 90, 0, 0, 1, 1],
      0x5f8d7eb39ac941d3f375ffd5532e316562ffdb04e3a02ffc980a3153872728a3)]

/-- The block for an input of the samples. -/
def sampleBlock (data : Bytes) : Bytes := toBytes 32 ((sampleBlocks.lookup data).getD 0)

theorem length_sampleBlock (data : Bytes) : (sampleBlock data).length = 32 := length_toBytes ..

/-- Libcrypto with SHA-256, as far as the samples need it. -/
def sampleKdfCrypto : Libcrypto where
  size _ := 32
  hash _ data := .ok (sampleBlock data)
  length_hash {_ data _} ok := by
    rw [← Except.ok.inj ok, length_sampleBlock]

/-- HMAC-SHA256, as far as the samples need it. -/
def sampleKdfMac : sampleKdfCrypto.Mac where
  hmac _ _ data := .ok (sampleBlock data)
  length_hmac {_ _ data _} ok := by
    rw [← Except.ok.inj ok, length_sampleBlock]
    rfl

/-- A key of 257 bits takes one byte of a second block, and leaves the byte behind it. -/
theorem kdf_fills_requested_bytes_257 :
    (kdfaInto sampleKdfCrypto sampleKdfMac .sha256 [107] [88] [89] [90] 257 33).Ends
      (List.replicate 34 0xff) (.ok (some 33))
      (toBytes 32 0x6ece2c0e558ec96078ed31f7e551b4f88a116e614781105fb9c3b673ab42227c ++
        [0x5f, 0xff]) ∧
    (kdfeInto sampleKdfCrypto .sha256 [122] [88] [89] [90] 257 33).Ends
      (List.replicate 34 0xff) (.ok (some 33))
      (toBytes 32 0xde8a88622f2d4760cb8197eddcceb8c90c25037e570aab4afe9bc7864650ad27 ++
        [0x8d, 0xff]) := by
  obtain ⟨kdfa, -, kdfe⟩ := kdf_fills_requested_bytes sampleKdfCrypto sampleKdfMac .sha256
    (Nat.zero_lt_succ 31) (show 32 ≤ 64 by decide) (fun _ => sampleBlock) sampleBlock
    (fun _ _ _ => rfl) (fun _ => rfl) 257 (by decide) [88] [89] [90]
  have kdfaEnds := (kdfa [107] (by decide) (List.replicate 34 0xff)).1 (by decide) 33 (by decide)
  have kdfeEnds := (kdfe [122] (List.replicate 34 0xff)).1 (by decide) 33 (by decide)
  refine ⟨?_, ?_⟩
  · refine (congrArg (Ends _ _ _) ?_).mp kdfaEnds
    decide +kernel
  · refine (congrArg (Ends _ _ _) ?_).mp kdfeEnds
    decide +kernel

end TpmHash
end Tpm2
