import Tpm2.Algorithm.Rounds
import Tpm2.Device.Capability
import Tpm2.Sh.Task
import Tpm2.Vtpm.Run

/-! Reading an NV index: its contents are asked for in pieces, as large as the TPM says that it can
send them. -/

namespace Tpm2

open ByteCodec

/-- The errors of `readNvIndex`. -/
inductive NvError
  | task (e : TaskError)
  | protocol (e : TpmError)
  | tryFromInt
  deriving DecidableEq

namespace TpmaNv

def PPREAD : TpmaNv := ⟨0x00010000⟩
def OWNERREAD : TpmaNv := ⟨0x00020000⟩
def AUTHREAD : TpmaNv := ⟨0x00040000⟩

def contains (attributes other : TpmaNv) : Bool := attributes.bits &&& other.bits = other.bits

end TpmaNv

/-- `u16::try_from(usize)`. -/
def checkedU16 (value : Nat) : Except NvError UInt16 :=
  if value ≤ u16Max then .ok (UInt16.ofNat value) else .error .tryFromInt

/-- Determines the correct handle to use for authorization based on NV attributes. -/
def resolveNvAuth (attributes : TpmaNv) (handle : UInt32) : UInt32 :=
  if attributes.contains .AUTHREAD then handle
  else if attributes.contains .PPREAD then TpmEnum.value TpmRh.platform
  else if attributes.contains .OWNERREAD then TpmEnum.value TpmRh.owner
  else handle

/-- Reads the public area of an NV index. -/
def readNvPublic (crypto : Libcrypto) (handle : UInt32) :
    Fallible NvError TaskState TpmsNvPublic := do
  let resp ← EStateM.adaptExcept .task <|
    TaskState.execute crypto (C := TpmNvReadPublicCommand) ⟨.one (.new handle), ()⟩ []
  let readPublicResp ← Fallible.ofExcept
    ((resp.unmarshal TpmNvReadPublicResponse).mapError .protocol)
  return readPublicResp.parameters.1.inner

/-- What the requests for the contents of an NV index have in common. -/
structure NvRequests where
  handle : UInt32
  authHandle : UInt32
  effectiveAuths : List Auth
  maxReadSize : UInt32
  dataSize : Nat
  deriving DecidableEq

/-- The variables of the loop of `readNvIndex`, and whether it has been left by `break`. -/
structure NvReading where
  offset : Nat
  certBytes : Bytes
  stopped : Bool

namespace NvRequests

variable (nv : NvRequests) (reading : NvReading)

/-- The requests of a task for an NV index with the given public area. -/
def of (task : TaskState) (handle maxReadSize : UInt32) (nvPublic : TpmsNvPublic) : NvRequests :=
  let authHandle := resolveNvAuth nvPublic.attributes handle
  let flagsToCheck := TpmaNv.AUTHREAD.bits ||| TpmaNv.OWNERREAD.bits ||| TpmaNv.PPREAD.bits
  let needsAuth := nvPublic.attributes.bits &&& flagsToCheck ≠ 0
  { handle, authHandle, maxReadSize
    effectiveAuths := if needsAuth then [task.authFor (.new authHandle)] else []
    dataSize := nvPublic.dataSize.value.toNat }

/-- All is read, or the TPM has sent nothing. -/
def done : Bool := reading.stopped || decide (nv.dataSize ≤ reading.offset)

/-- How many bytes are asked for next. -/
def chunkSize : Nat := min nv.maxReadSize.toNat (nv.dataSize - reading.offset)

/-- Sends `NV_Read`. -/
def request (crypto : Libcrypto) (size offset : UInt16) :
    Fallible TaskError TaskState TpmResponse :=
  TaskState.execute crypto (C := TpmNvReadCommand)
    ⟨.two (.new nv.authHandle) (.new nv.handle), (.new size, .new offset, ())⟩ nv.effectiveAuths

/-- One round of the loop of `readNvIndex`. -/
def readChunk (crypto : Libcrypto) : Fallible NvError TaskState NvReading := do
  let size ← Fallible.ofExcept (checkedU16 (nv.chunkSize reading))
  let offset ← Fallible.ofExcept (checkedU16 reading.offset)
  let resp ← EStateM.adaptExcept .task (nv.request crypto size offset)
  let readResp ← Fallible.ofExcept ((resp.unmarshal TpmNvReadResponse).mapError .protocol)
  let data := readResp.parameters.1.bytes
  if data.length = 0 then
    return { reading with stopped := true }
  else
    return ⟨reading.offset + data.length, reading.certBytes ++ data, false⟩

end NvRequests

/-- What `readNvIndex` does before its loop. -/
def openNvIndex (crypto : Libcrypto) (handle : UInt32) :
    Fallible NvError TaskState NvRequests := do
  let maxReadSize ← EStateM.adaptExcept .task
    (TaskState.withDevice (TpmDevice.fetchTpmProperty .nvBufferMax))
  let nvPublic ← readNvPublic crypto handle
  return .of (← get) handle maxReadSize nvPublic

/-- Reads the contents of an NV index, with `rounds` requests at most: it returns `none` when it
would go on then. -/
def readNvIndex (crypto : Libcrypto) (handle : UInt32) (rounds : Nat) :
    Fallible NvError TaskState (Option Bytes) := do
  let nv ← openNvIndex crypto handle
  if nv.dataSize = 0 then
    return some []
  else
    let ended ← Rounds.loop nv.done (fun reading => nv.readChunk reading crypto) rounds
      ⟨0, [], false⟩
    return ended.map NvReading.certBytes

/-- A response to `NV_Read` that has `data`. -/
structure Carries (resp : TpmResponse) (data : Bytes) : Prop where
  valid : resp.validate .nvRead = .ok ()
  parts : resp.bodyParts TpmNvReadResponse = .ok ([], prefixed 2 data)

instance {resp : TpmResponse} {data : Bytes} : Decidable (Carries resp data) :=
  decidable_of_iff (resp.validate .nvRead = .ok () ∧
    resp.bodyParts TpmNvReadResponse = .ok ([], prefixed 2 data))
    ⟨fun ⟨valid, parts⟩ => ⟨valid, parts⟩, fun ⟨valid, parts⟩ => ⟨valid, parts⟩⟩

namespace NvRequests

/-- The loop of `readNvIndex` asks for `size` bytes at `offset` when it has left the task in the
state `task'`. -/
def Asks (nv : NvRequests) (crypto : Libcrypto) (task : TaskState) (size offset : UInt16)
    (task' : TaskState) : Prop :=
  ∃ reading, Rounds.Reaches nv.done (fun reading => nv.readChunk reading crypto) ⟨0, [], false⟩ task
    reading task' ∧ nv.done reading = false ∧ size.toNat = nv.chunkSize reading ∧
      offset.toNat = reading.offset

/-- The TPM answers each request with one or more of the bytes that it is asked for. -/
def Answered (nv : NvRequests) (crypto : Libcrypto) (contents : Bytes) (task : TaskState) : Prop :=
  ∀ size offset task', nv.Asks crypto task size offset task' → ∃ resp data task'',
    (nv.request crypto size offset).run task' = .ok resp task'' ∧ Carries resp data ∧
      0 < data.length ∧ data.length ≤ size.toNat ∧
      data = (contents.drop offset.toNat).take data.length

/-- No response has more bytes than a `Tpm2bMaxNvBuffer` holds. -/
def Fits (nv : NvRequests) (crypto : Libcrypto) (task : TaskState) : Prop :=
  ∀ size offset task' resp data task'', nv.Asks crypto task size offset task' →
    (nv.request crypto size offset).run task' = .ok resp task'' → Carries resp data →
      data.length ≤ maxNvBufferSize

end NvRequests

theorem exists_u16 {value : Nat} (small : value ≤ u16Max) : ∃ v : UInt16, v.toNat = value := by
  refine ⟨UInt16.ofNat value, UInt16.toNat_ofNat_of_lt' ?_⟩
  rw [u16Max] at small
  rw [UInt16.size]
  omega

theorem checkedU16_toNat (v : UInt16) : checkedU16 v.toNat = .ok v := by
  have small : v.toNat ≤ u16Max := Nat.le_of_lt_succ v.toNat_lt
  rw [checkedU16, if_pos small, UInt16.ofNat_toNat]

section
variable {resp : TpmResponse} {data : Bytes}

/-- The data of a response is read if it fits. -/
theorem Carries.unmarshal_ok (carries : Carries resp data) (fits : data.length ≤ maxNvBufferSize) :
    ∃ body, resp.unmarshal TpmNvReadResponse = .ok body ∧ body.parameters.1.bytes = data := by
  have wide : data.length ≤ u16Max := Nat.le_trans fits (by decide)
  have read : unmarshal (prefixed 2 data) = .ok ((⟨data, fits, wide⟩ : Tpm2bMaxNvBuffer), []) := by
    rw [TpmBuffer.unmarshal_eq_ok, List.append_nil]
    rfl
  refine ⟨⟨⟨[], rfl⟩, (⟨data, fits, wide⟩, ())⟩, ?_, rfl⟩
  refine bind_eq_ok.mpr ⟨(), carries.valid, bind_eq_ok.mpr ⟨_, carries.parts, ?_⟩⟩
  refine bind_eq_ok.mpr ⟨⟨[], rfl⟩, rfl, bind_eq_ok.mpr ⟨((⟨data, fits, wide⟩, ()), []), ?_, rfl⟩⟩
  exact bind_eq_ok.mpr ⟨(⟨data, fits, wide⟩, []), mapError_eq_ok.mpr read, rfl⟩

theorem Carries.length_unique {data' : Bytes} (carries : Carries resp data)
    (carries' : Carries resp data') : data.length = data'.length := by
  have parts := carries.parts.symm.trans carries'.parts
  have lengths := congrArg List.length (Prod.mk.inj (Except.ok.inj parts)).2
  rw [length_prefixed, length_prefixed] at lengths
  omega

/-- More data is refused. -/
theorem Carries.length_le (carries : Carries resp data) (small : data.length < 256 ^ 2)
    {body : TpmBody TpmNvReadResponse} (ok : resp.unmarshal TpmNvReadResponse = .ok body) :
    data.length ≤ maxNvBufferSize := by
  obtain ⟨_, -, ok⟩ := bind_eq_ok.mp ok
  obtain ⟨parts, split, ok⟩ := bind_eq_ok.mp ok
  rw [carries.parts] at split
  cases split
  obtain ⟨_, -, ok⟩ := bind_eq_ok.mp ok
  obtain ⟨⟨fields, rest⟩, read, -⟩ := bind_eq_ok.mp ok
  obtain ⟨⟨field, rest'⟩, read, -⟩ := bind_eq_ok.mp read
  have bytes : prefixed 2 data ++ [] = prefixed 2 field.bytes ++ rest' := by
    rw [List.append_nil]
    exact TpmBuffer.unmarshal_eq_ok.mp (mapError_eq_ok.mp read)
  have inField : field.bytes.length < 256 ^ 2 := Nat.lt_of_le_of_lt field.length_le (by decide)
  have count := numberAt_prefixed (r := []) small
  rw [bytes, numberAt_prefixed inField] at count
  rw [← count]
  exact field.length_le

end

section
variable {crypto : Libcrypto} {nv : NvRequests} {contents : Bytes} {reading : NvReading}
  {task task' task'' : TaskState} {size offset : UInt16} {resp : TpmResponse} {data : Bytes}

theorem not_done : nv.done reading = false ↔
    reading.stopped = false ∧ reading.offset < nv.dataSize := by
  simp [NvRequests.done]

/-- What has been read is the contents up to the offset. -/
structure PartlyReadNv (contents : Bytes) (reading : NvReading) : Prop where
  going : reading.stopped = false
  inside : reading.offset ≤ contents.length
  certBytes : reading.certBytes = contents.take reading.offset

/-- A round up to its response. -/
theorem run_readChunk (sized : size.toNat = nv.chunkSize reading)
    (at_offset : offset.toNat = reading.offset)
    (sent : (nv.request crypto size offset).run task' = .ok resp task'') :
    (nv.readChunk reading crypto).run task' =
      (do
        let readResp ← Fallible.ofExcept
          ((resp.unmarshal TpmNvReadResponse).mapError NvError.protocol)
        let data := readResp.parameters.1.bytes
        if data.length = 0 then
          return { reading with stopped := true }
        else
          return ⟨reading.offset + data.length, reading.certBytes ++ data, false⟩ :
        Fallible NvError TaskState NvReading).run task'' := by
  have first : checkedU16 (nv.chunkSize reading) = .ok size := sized ▸ checkedU16_toNat size
  have second : checkedU16 reading.offset = .ok offset := at_offset ▸ checkedU16_toNat offset
  have request : (EStateM.adaptExcept NvError.task (nv.request crypto size offset)).run task' =
      .ok resp task'' := Fallible.run_adaptExcept_eq_ok.mpr sent
  rw [NvRequests.readChunk, EStateM.run_bind, first, Fallible.run_ofExcept_ok]
  dsimp only
  rw [EStateM.run_bind, second, Fallible.run_ofExcept_ok]
  dsimp only
  rw [EStateM.run_bind, request]

/-- A response that fits is put behind what has been read. -/
theorem readChunk_ok (sized : size.toNat = nv.chunkSize reading)
    (at_offset : offset.toNat = reading.offset)
    (sent : (nv.request crypto size offset).run task' = .ok resp task'')
    (carries : Carries resp data) (some_data : 0 < data.length)
    (fits : data.length ≤ maxNvBufferSize) :
    (nv.readChunk reading crypto).run task' =
      .ok ⟨reading.offset + data.length, reading.certBytes ++ data, false⟩ task'' := by
  obtain ⟨body, read, bytes⟩ := carries.unmarshal_ok fits
  rw [run_readChunk sized at_offset sent, read]
  show (if body.parameters.1.bytes.length = 0 then
    (pure { reading with stopped := true } : Fallible NvError TaskState NvReading) else
      pure ⟨reading.offset + body.parameters.1.bytes.length,
        reading.certBytes ++ body.parameters.1.bytes, false⟩).run task'' = _
  rw [bytes, if_neg (Nat.ne_of_gt some_data)]
  rfl

/-- Behind what has been read come the next bytes of the contents. -/
theorem PartlyReadNv.next (inv : PartlyReadNv contents reading)
    (room : data.length ≤ contents.length - reading.offset)
    (slice : data = (contents.drop reading.offset).take data.length) :
    PartlyReadNv contents ⟨reading.offset + data.length, reading.certBytes ++ data, false⟩ := by
  have inside := inv.inside
  refine ⟨rfl, ?_, ?_⟩
  · show reading.offset + data.length ≤ contents.length
    omega
  · show reading.certBytes ++ data = contents.take (reading.offset + data.length)
    rw [inv.certBytes, List.take_add, ← slice]

/-- The sizes and offsets that are asked for fit 16 bits. -/
theorem exists_asks (inv : PartlyReadNv contents reading) (length : contents.length = nv.dataSize)
    (small : nv.dataSize ≤ u16Max) :
    ∃ size offset : UInt16, size.toNat = nv.chunkSize reading ∧ offset.toNat = reading.offset := by
  have inside := inv.inside
  have chunk : nv.chunkSize reading ≤ nv.dataSize - reading.offset := Nat.min_le_right _ _
  have chunkSmall : nv.chunkSize reading ≤ u16Max := by omega
  have offsetSmall : reading.offset ≤ u16Max := by omega
  obtain ⟨size, sized⟩ := exists_u16 chunkSmall
  obtain ⟨offset, at_offset⟩ := exists_u16 offsetSmall
  exact ⟨size, offset, sized, at_offset⟩

/-- The size of an NV index is a 16-bit number. -/
theorem openNvIndex_dataSize {handle : UInt32}
    (opened : (openNvIndex crypto handle).run task = .ok nv task') : nv.dataSize ≤ u16Max := by
  obtain ⟨maxReadSize, task₁, -, opened⟩ := Fallible.run_bind_eq_ok.mp opened
  obtain ⟨nvPublic, task₂, -, opened⟩ := Fallible.run_bind_eq_ok.mp opened
  obtain ⟨task₃, task₄, -, opened⟩ := Fallible.run_bind_eq_ok.mp opened
  cases opened
  exact Nat.le_of_lt_succ nvPublic.dataSize.value.toNat_lt

/-- Where all responses fit, the loop returns the contents. -/
theorem nvLoop_returns (small : nv.dataSize ≤ u16Max) (length : contents.length = nv.dataSize)
    (answered : nv.Answered crypto contents task) (fits : nv.Fits crypto task) {rounds : Nat}
    (enough : contents.length ≤ rounds) : ∃ last task',
      (Rounds.loop nv.done (fun reading => nv.readChunk reading crypto) rounds ⟨0, [], false⟩).run
        task = .ok (some last) task' ∧ last.certBytes = contents := by
  have round : ∀ reading task',
      Rounds.Reaches nv.done (fun reading => nv.readChunk reading crypto) ⟨0, [], false⟩ task
        reading task' ∧ PartlyReadNv contents reading → nv.done reading = false →
      ∃ next task'', (nv.readChunk reading crypto).run task' = .ok next task'' ∧
        (Rounds.Reaches nv.done (fun reading => nv.readChunk reading crypto) ⟨0, [], false⟩ task
          next task'' ∧ PartlyReadNv contents next) ∧
        nv.dataSize - next.offset < nv.dataSize - reading.offset := by
    rintro reading task' ⟨reached, inv⟩ goes
    obtain ⟨size, offset, sized, at_offset⟩ := exists_asks inv length small
    have asks : nv.Asks crypto task size offset task' := ⟨reading, reached, goes, sized, at_offset⟩
    obtain ⟨resp, data, task'', sent, carries, some_data, asked, slice⟩ :=
      answered size offset task' asks
    have small := fits size offset task' resp data task'' asks sent carries
    have ran := readChunk_ok sized at_offset sent carries some_data small
    have chunk : nv.chunkSize reading ≤ nv.dataSize - reading.offset := Nat.min_le_right _ _
    have room : data.length ≤ contents.length - reading.offset := by omega
    have before := (not_done.mp goes).2
    rw [at_offset] at slice
    refine ⟨_, task'', ran, ⟨reached.round goes ran, inv.next room slice⟩, ?_⟩
    dsimp only
    omega
  obtain ⟨last, task', ran, ended, -, inv⟩ := Rounds.loop_returns round rounds
    ⟨.start, rfl, Nat.zero_le _, rfl⟩ (Nat.le_trans (Nat.sub_le _ _) (length ▸ enough))
  refine ⟨last, task', ran, ?_⟩
  have all : nv.dataSize ≤ last.offset := by
    simpa [NvRequests.done, inv.going] using ended
  rw [inv.certBytes, List.take_of_length_le (length ▸ all)]

/-- A loop that returns has had no response that does not fit. -/
theorem fits_of_nvLoop {rounds : Nat} {last : NvReading}
    (ran : (Rounds.loop nv.done (fun reading => nv.readChunk reading crypto) rounds
      ⟨0, [], false⟩).run task = .ok (some last) task')
    (answered : nv.Answered crypto contents task) : nv.Fits crypto task := by
  intro size offset task₁ resp data task₂ asks sent carries
  obtain ⟨resp', data', task₃, sent', carries', -, asked, -⟩ := answered size offset task₁ asks
  obtain ⟨reading, reached, goes, sized, at_offset⟩ := asks
  rw [sent] at sent'
  cases sent'
  obtain ⟨next, task₄, once⟩ := reached.round_ok goes ran
  rw [run_readChunk sized at_offset sent] at once
  obtain ⟨body, task₅, read, -⟩ := Fallible.run_bind_eq_ok.mp once
  have ok := mapError_eq_ok.mp (Fallible.run_ofExcept_eq_ok.mp read).1
  have lengths := carries.length_unique carries'
  have wide := size.toNat_lt
  exact carries.length_le (by omega) ok

/-- All responses fit where no more is asked for at once. -/
theorem fits_of_small (answered : nv.Answered crypto contents task)
    (small : nv.maxReadSize.toNat ≤ maxNvBufferSize ∨ nv.dataSize ≤ maxNvBufferSize) :
    nv.Fits crypto task := by
  intro size offset task₁ resp data task₂ asks sent carries
  obtain ⟨resp', data', task₃, sent', carries', -, asked, -⟩ := answered size offset task₁ asks
  obtain ⟨reading, -, -, sized, -⟩ := asks
  rw [sent] at sent'
  cases sent'
  have lengths := carries.length_unique carries'
  have chunk : size.toNat ≤ nv.maxReadSize.toNat ∧ size.toNat ≤ nv.dataSize := by
    rw [sized, NvRequests.chunkSize]
    omega
  omega

theorem run_readNvIndex {handle : UInt32}
    (opened : (openNvIndex crypto handle).run task = .ok nv task') (rounds : Nat) :
    (readNvIndex crypto handle rounds).run task =
      (if nv.dataSize = 0 then pure (some []) else do
        let ended ← Rounds.loop nv.done (fun reading => nv.readChunk reading crypto) rounds
          ⟨0, [], false⟩
        return ended.map NvReading.certBytes : Fallible NvError TaskState (Option Bytes)).run
          task' := by
  rw [readNvIndex, EStateM.run_bind, opened]

theorem fits_of_readNvIndex {handle : UInt32} {rounds : Nat} {read : Bytes}
    (opened : (openNvIndex crypto handle).run task = .ok nv task')
    (answered : nv.Answered crypto contents task')
    (ran : (readNvIndex crypto handle rounds).run task = .ok (some read) task'') :
    nv.Fits crypto task' := by
  rw [run_readNvIndex opened] at ran
  by_cases empty : nv.dataSize = 0
  · -- nothing is asked for
    rintro size offset task₁ resp data task₂ ⟨reading, reached, goes, -⟩
    have going := (not_done.mp goes).2
    omega
  · rw [if_neg empty] at ran
    obtain ⟨ended, task₁, looped, mapped⟩ := Fallible.run_bind_eq_ok.mp ran
    cases ended with
    | none => cases mapped
    | some last => exact fits_of_nvLoop looped answered

/-- The contents of an NV index are returned, with as many requests as they have bytes at most, if
and only if no response has more bytes than a `Tpm2bMaxNvBuffer` holds. -/
theorem readNvIndex_returns_iff {handle : UInt32}
    (opened : (openNvIndex crypto handle).run task = .ok nv task')
    (length : contents.length = nv.dataSize) (answered : nv.Answered crypto contents task') :
    (∀ rounds, contents.length ≤ rounds → ∃ task'',
      (readNvIndex crypto handle rounds).run task = .ok (some contents) task'') ↔
    nv.Fits crypto task' := by
  constructor
  · intro returns
    obtain ⟨task'', ran⟩ := returns contents.length (Nat.le_refl _)
    exact fits_of_readNvIndex opened answered ran
  · intro fits rounds enough
    rw [run_readNvIndex opened]
    by_cases empty : nv.dataSize = 0
    · have nothing : contents = [] := List.length_eq_zero_iff.mp (length.trans empty)
      rw [if_pos empty, nothing]
      exact ⟨task', rfl⟩
    · obtain ⟨last, task'', looped, whole⟩ :=
        nvLoop_returns (openNvIndex_dataSize opened) length answered fits enough
      rw [if_neg empty, EStateM.run_bind, looped, ← whole]
      exact ⟨task'', rfl⟩

end

/-- The bytes of a response to `NV_Read` with one session. -/
def nvFrame (contents : Bytes) : Bytes :=
  [0x80, 2] ++ toBytes 4 (21 + contents.length) ++ [0, 0, 0, 0] ++
    (prefixed 4 (prefixed 2 contents) ++ [0, 0, 1, 0, 0])

/-- A TPM that sends up to `maxReadSize` bytes at once and has an NV index which may be read with
its authorization value: it sends the contents in `pieces`. -/
def nvTask (maxReadSize : Nat) (pieces : List Bytes) : TaskState :=
  TaskState.sampleTask VtpmCache.emptyCache fun sent => .response <|
    if sent.length = 1 then
      [0x80, 1, 0, 0, 0, 27, 0, 0, 0, 0, 0, 0, 0, 0, 6, 0, 0, 0, 1, 0, 0, 0x01, 0x2C] ++
        toBytes 4 maxReadSize
    else if sent.length = 2 then
      [0x80, 1, 0, 0, 0, 28, 0, 0, 0, 0, 0, 14, 0x01, 0x80, 0, 0, 0, 0x0B, 0, 0x04, 0, 0, 0, 0] ++
        toBytes 2 pieces.flatten.length ++ [0, 0]
    else
      nvFrame (pieces.getD (sent.length - 3) [])

/-- The requests for the contents of that index. -/
def nvRequests (maxReadSize : Nat) (pieces : List Bytes) : NvRequests :=
  ⟨0x01800000, 0x01800000, [.default], .ofNat maxReadSize, pieces.flatten.length⟩

/-- The next request is answered with one of the pieces of the contents, as it asks for. -/
def NvRequests.answersNext (nv : NvRequests) (pieces : List Bytes) (reading : NvReading)
    (task : TaskState) : Bool :=
  let size := UInt16.ofNat (nv.chunkSize reading)
  let offset := UInt16.ofNat reading.offset
  (Fallible.value? ((nv.request VtpmCache.sampleCrypto size offset).run task)).any fun resp =>
    pieces.any fun data => decide (Carries resp data ∧ 0 < data.length ∧
      data.length ≤ size.toNat ∧ data = (pieces.flatten.drop offset.toNat).take data.length)

section
variable {nv : NvRequests} {pieces : List Bytes} {task : TaskState} {rounds : Nat}

/-- A request of the loop is answered as the check of its round says. -/
theorem answered_of_passes {size offset : UInt16} {task' : TaskState}
    (passed : Rounds.passes nv.done (fun reading => nv.readChunk reading VtpmCache.sampleCrypto)
      (nv.answersNext pieces) rounds ⟨0, [], false⟩ task = true)
    (asks : nv.Asks VtpmCache.sampleCrypto task size offset task') : ∃ resp, ∃ data ∈ pieces,
      ∃ task'', (nv.request VtpmCache.sampleCrypto size offset).run task' = .ok resp task'' ∧
        Carries resp data ∧ 0 < data.length ∧ data.length ≤ size.toNat ∧
        data = (pieces.flatten.drop offset.toNat).take data.length := by
  obtain ⟨reading, reached, goes, sized, at_offset⟩ := asks
  have next := reached.passed goes passed
  rw [NvRequests.answersNext, ← sized, ← at_offset, UInt16.ofNat_toNat, UInt16.ofNat_toNat] at next
  obtain ⟨resp, sent, next⟩ := (Option.any_eq_true _ _).mp next
  obtain ⟨data, piece, answer⟩ := List.any_eq_true.mp next
  exact ⟨resp, data, piece, _, Fallible.value?_eq_some.mp sent, of_decide_eq_true answer⟩

/-- What is to be computed of a task with such a TPM. -/
theorem nvTask_answers (maxReadSize : Nat) (pieces : List Bytes) (rounds : Nat)
    (evaluated : (Fallible.value? ((openNvIndex VtpmCache.sampleCrypto 0x01800000).run
      (nvTask maxReadSize pieces))).any (fun nv => decide (nv = nvRequests maxReadSize pieces) &&
        Rounds.passes nv.done (fun reading => nv.readChunk reading VtpmCache.sampleCrypto)
          (nv.answersNext pieces) rounds ⟨0, [], false⟩
          (Fallible.after ((openNvIndex VtpmCache.sampleCrypto 0x01800000).run
            (nvTask maxReadSize pieces)))) = true) : ∃ task,
      (openNvIndex VtpmCache.sampleCrypto 0x01800000).run (nvTask maxReadSize pieces) =
        .ok (nvRequests maxReadSize pieces) task ∧
      Rounds.passes (nvRequests maxReadSize pieces).done
        (fun reading => (nvRequests maxReadSize pieces).readChunk reading VtpmCache.sampleCrypto)
        ((nvRequests maxReadSize pieces).answersNext pieces) rounds ⟨0, [], false⟩ task = true := by
  obtain ⟨nv, opened, passed⟩ := (Option.any_eq_true _ _).mp evaluated
  obtain ⟨same, passed⟩ := Bool.and_eq_true_iff.mp passed
  obtain rfl := of_decide_eq_true same
  exact ⟨_, Fallible.value?_eq_some.mp opened, passed⟩

end

/-- Three bytes, which the TPM sends two at a time. -/
def twoPieces : List Bytes := [[1, 2], [3]]

theorem readNvIndex_returns_iff_twoPieces : ∃ task,
    (∀ rounds, 3 ≤ rounds → ∃ task', (readNvIndex VtpmCache.sampleCrypto 0x01800000 rounds).run
      (nvTask 2 twoPieces) = .ok (some [1, 2, 3]) task') ↔
    (nvRequests 2 twoPieces).Fits VtpmCache.sampleCrypto task := by
  obtain ⟨task, opens, passed⟩ := nvTask_answers 2 twoPieces 2 (by decide +kernel)
  refine ⟨task, readNvIndex_returns_iff opens rfl fun size offset task' asks => ?_⟩
  obtain ⟨resp, data, -, answer⟩ := answered_of_passes passed asks
  exact ⟨resp, data, answer⟩

/-- More bytes than a `Tpm2bMaxNvBuffer` holds, which the TPM sends at once. -/
def longContents : Bytes := List.replicate 1025 0xAB

theorem not_readNvIndex_returns : ¬ ∀ crypto handle nv contents task task',
    (openNvIndex crypto handle).run task = .ok nv task' → contents.length = nv.dataSize →
      0 < nv.maxReadSize → nv.Answered crypto contents task' → ∃ rounds task'',
        (readNvIndex crypto handle rounds).run task = .ok (some contents) task'' := by
  intro returns
  obtain ⟨task, opens, passed⟩ := nvTask_answers 2048 [longContents] 1 (by decide +kernel)
  have length : longContents.length = 1025 := List.length_replicate
  have whole : [longContents].flatten = longContents := by simp
  have answered : (nvRequests 2048 [longContents]).Answered VtpmCache.sampleCrypto longContents
      task := by
    intro size offset task' asks
    obtain ⟨resp, data, -, answer⟩ := answered_of_passes passed asks
    rw [whole] at answer
    exact ⟨resp, data, answer⟩
  obtain ⟨rounds, task'', ran⟩ := returns _ _ _ _ _ _ opens (congrArg List.length whole).symm
    (by decide) answered
  -- the first request, for all of it
  have asks : (nvRequests 2048 [longContents]).Asks VtpmCache.sampleCrypto task 1025 0 task :=
    ⟨⟨0, [], false⟩, .start, by decide +kernel, by decide +kernel, rfl⟩
  obtain ⟨resp, data, piece, task', sent, carries, -⟩ := answered_of_passes passed asks
  have fits := fits_of_readNvIndex opens answered ran 1025 0 task resp data task' asks sent carries
  rw [List.mem_singleton.mp piece, length] at fits
  exact absurd fits (by decide)

end Tpm2
