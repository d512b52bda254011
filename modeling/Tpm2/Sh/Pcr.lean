import Mathlib.Algebra.Order.BigOperators.Group.List
import Mathlib.Algebra.Order.Group.Nat
import Tpm2.Algorithm.HashMap
import Tpm2.Algorithm.Rounds
import Tpm2.Device.Capability
import Tpm2.PolicyLanguage.PcrSelect
import Tpm2.Sh.Task

/-! Reading all PCRs: the device is asked again for those that its replies have left out. -/

namespace Tpm2

open ByteCodec

open TpmDevice (transmit fetchPcrBankList)

/-- The errors of `readAllPcrs`. -/
inductive PcrError
  | device (e : TaskError)
  | protocol (e : TpmError)
  | capacityExceeded
  | invalidAlgorithm (alg : TpmAlgId)
  | pcrDigestMissing

/-- The values of the PCRs that have been read, bank by bank. -/
abbrev PcrResults := HashMap TpmAlgId (HashMap UInt32 Tpm2bDigest)

/-- The variables of the loop of `readAllPcrs`. -/
structure PcrReading where
  remainingSelection : TpmlPcrSelection
  results : PcrResults

def isSelectionEmpty (selection : TpmlPcrSelection) : Bool :=
  selection.items.all fun s => s.pcrSelect.data.all (· = 0)

/-- `mask_bytes[i] &= !byte` for each byte that has a place in the mask. -/
def clearRead : (maskBytes read : Bytes) → Bytes
  | mask :: maskBytes, byte :: read => (mask &&& ~~~byte) :: clearRead maskBytes read
  | maskBytes, _ => maskBytes

/-- The mask of a bank without the PCRs that have been read. -/
def remainingMask (read : TpmlPcrSelection) (targetSel : TpmsPcrSelection) : Bytes :=
  match read.items.find? fun s => s.hash = targetSel.hash with
  | some readSel => clearRead targetSel.pcrSelect.data readSel.pcrSelect.data
  | none => targetSel.pcrSelect.data

/-- What `updateRemainingSelection` does for each bank. -/
def pushRemaining (read newList : TpmlPcrSelection) (targetSel : TpmsPcrSelection) :
    Except PcrError TpmlPcrSelection := do
  let newSelect ← (TpmsPcrSelect.tryFrom (remainingMask read targetSel)).mapError .protocol
  (newList.tryPush ⟨targetSel.hash, newSelect⟩).mapError fun _ => .capacityExceeded

def updateRemainingSelection (remaining read : TpmlPcrSelection) :
    Except PcrError TpmlPcrSelection :=
  remaining.items.foldlM (pushRemaining read) .new

/-- Stores a digest for each PCR of one bank, and returns the digests that are left. -/
def storeBank : List UInt32 → List Tpm2bDigest → HashMap UInt32 Tpm2bDigest →
    Except PcrError (HashMap UInt32 Tpm2bDigest × List Tpm2bDigest)
  | [], values, bankStore => return (bankStore, values)
  | _ :: _, [], _ => throw .pcrDigestMissing
  | pcrIdx :: indices, digest :: values, bankStore =>
      storeBank indices values (bankStore.insert pcrIdx digest)

/-- Stores the digests of a reply. -/
def storeValues : List TpmsPcrSelection → List Tpm2bDigest → PcrResults →
    Except PcrError PcrResults
  | [], _, results => return results
  | selectionOut :: rest, values, results =>
      match results.lookup selectionOut.hash with
      | none => throw (.invalidAlgorithm selectionOut.hash)
      | some bankStore => do
          let (bankStore, values) ← storeBank (pcrIndices selectionOut.pcrSelect.data) values
            bankStore
          storeValues rest values (results.insert selectionOut.hash bankStore)

/-- Asks the device for PCRs: the selection that it has read, and the digests. -/
def pcrRead (selection : TpmlPcrSelection) :
    Fallible PcrError TpmDevice (TpmlPcrSelection × TpmlDigest) := do
  let resp ← EStateM.adaptExcept (fun e => .device (deviceErr e))
    (transmit (C := TpmPcrReadCommand) ⟨⟨[], List.length_nil⟩, (selection, ())⟩ [])
  let pcrResp ← Fallible.ofExcept ((resp.unmarshal TpmPcrReadResponse).mapError .protocol)
  let (_, pcrSelectionOut, pcrValues, _) := pcrResp.parameters
  return (pcrSelectionOut, pcrValues)

/-- One round of the loop of `readAllPcrs`. -/
def readPcrs (reading : PcrReading) : Fallible PcrError TpmDevice PcrReading := do
  let (pcrSelectionOut, pcrValues) ← pcrRead reading.remainingSelection
  let results ← Fallible.ofExcept
    (storeValues pcrSelectionOut.items pcrValues.items reading.results)
  let remainingSelection ← Fallible.ofExcept
    (updateRemainingSelection reading.remainingSelection pcrSelectionOut)
  return ⟨remainingSelection, results⟩

/-- What `readAllPcrs` does before its loop: it selects the PCRs of the active banks. -/
def selectAllPcrs : Fallible PcrError TpmDevice PcrReading := do
  let (algs, commonMask) ← EStateM.adaptExcept (fun e => .device (deviceErr e)) fetchPcrBankList
  let remainingSelection ← Fallible.ofExcept
    (algs.foldlM (fun (selection : TpmlPcrSelection) alg =>
      (selection.tryPush ⟨alg, commonMask⟩).mapError fun _ => .capacityExceeded) .new)
  return ⟨remainingSelection, algs.foldl (fun results alg => results.insert alg ∅) ∅⟩

/-- No PCR remains to be read. -/
def PcrReading.done (reading : PcrReading) : Bool := isSelectionEmpty reading.remainingSelection

/-- Reads all PCRs from the active banks, with `rounds` requests at most: it returns `none` when it
would go on then. -/
def readAllPcrs (rounds : Nat) : Fallible PcrError TpmDevice (Option PcrResults) := do
  let reading ← selectAllPcrs
  let ended ← Rounds.loop PcrReading.done readPcrs rounds reading
  return ended.map PcrReading.results

/-- How many PCRs a selection selects. -/
def selectedPcrs (selection : TpmlPcrSelection) : Nat :=
  (selection.items.map fun s => (pcrIndices s.pcrSelect.data).length).sum

/-- The first selection of a bank in a reply has a PCR of that bank which remains to be read. -/
def HitsBank (read : TpmlPcrSelection) (targetSel : TpmsPcrSelection) : Prop :=
  ∃ readSel, (read.items.find? fun s => s.hash = targetSel.hash) = some readSel ∧
    ∃ pcr, pcrSelected targetSel.pcrSelect.data pcr ∧ pcrSelected readSel.pcrSelect.data pcr

/-- A reply reports a PCR that remains to be read. -/
def Reports (remaining read : TpmlPcrSelection) : Prop :=
  ∃ targetSel ∈ remaining.items, HitsBank read targetSel

section
variable {mask read : Bytes}

theorem length_clearRead (mask read : Bytes) : (clearRead mask read).length = mask.length := by
  induction mask generalizing read with
  | nil => rfl
  | cons mask maskBytes ih =>
      cases read with
      | nil => rfl
      | cons byte read => simp [clearRead, ih]

theorem getD_clearRead (mask read : Bytes) (i : Nat) :
    (clearRead mask read).getD i 0 = mask.getD i 0 &&& ~~~(read.getD i 0) := by
  induction mask generalizing read i with
  | nil => simp [clearRead]
  | cons mask maskBytes ih =>
      cases read with
      | nil => simp [clearRead]
      | cons byte read =>
          cases i with
          | zero => rfl
          | succ i => simpa [clearRead] using ih read i

theorem pcrSelected_clearRead (mask read : Bytes) (pcr : Nat) :
    pcrSelected (clearRead mask read) pcr = (pcrSelected mask pcr && !pcrSelected read pcr) := by
  have low : pcr % 8 < 8 := Nat.mod_lt _ (by decide)
  rw [pcrSelected, getD_clearRead, UInt8.toNat_and, Nat.testBit_and]
  congr 1
  have small := (read.getD (pcr / 8) 0).toNat_lt
  have complement : UInt8.size - 1 - (read.getD (pcr / 8) 0).toNat =
      2 ^ 8 - ((read.getD (pcr / 8) 0).toNat + 1) := by
    rw [UInt8.size]
    omega
  rw [UInt8.toNat_not, complement, Nat.testBit_two_pow_sub_succ small, decide_eq_true low,
    Bool.true_and]
  rfl

end

/-- A bitmap only selects PCRs that it has a bit for. -/
theorem mem_pcrIndices_of_selected {pcrSelect : Bytes} (short : pcrSelect.length ≤ tpmPcrSelectMax)
    {pcr : Nat} (selected : pcrSelected pcrSelect pcr) :
    UInt32.ofNat pcr ∈ pcrIndices pcrSelect ∧ (UInt32.ofNat pcr).toNat = pcr := by
  have inside : pcr < 8 * pcrSelect.length := by
    by_contra outside
    have none : pcrSelect.getD (pcr / 8) 0 = 0 := List.getD_eq_default _ _ (by omega)
    rw [pcrSelected, none] at selected
    simp at selected
  have small : pcrSelect.length ≤ 4 := short
  have toNat : (UInt32.ofNat pcr).toNat = pcr :=
    UInt32.toNat_ofNat_of_lt' (by rw [UInt32.size]; omega)
  refine ⟨(mem_pcrIndices short).mpr ?_, toNat⟩
  rw [toNat]
  exact ⟨inside, selected⟩

section
variable {remaining read updated : TpmlPcrSelection} {targetSel : TpmsPcrSelection}

theorem length_remainingMask (read : TpmlPcrSelection) (targetSel : TpmsPcrSelection) :
    (remainingMask read targetSel).length = targetSel.pcrSelect.data.length := by
  unfold remainingMask
  split
  · exact length_clearRead _ _
  · rfl

/-- The PCRs that remain to be read of a bank are those that the reply does not report. -/
theorem mem_remainingMask {pcr : UInt32} :
    pcr ∈ pcrIndices (remainingMask read targetSel) ↔
      pcr ∈ pcrIndices targetSel.pcrSelect.data ∧
        ∀ readSel, (read.items.find? fun s => s.hash = targetSel.hash) = some readSel →
          pcrSelected readSel.pcrSelect.data pcr.toNat = false := by
  have short := targetSel.pcrSelect.length_le
  rw [mem_pcrIndices (by rw [length_remainingMask]; exact short), mem_pcrIndices short,
    length_remainingMask, and_assoc]
  apply and_congr_right
  intro inside
  unfold remainingMask
  split
  next readSel found =>
    simp [found, pcrSelected_clearRead]
  next missing => simp [missing]

/-- A mask loses the PCRs that are reported, if there are any. -/
theorem length_remaining_lt_iff :
    (pcrIndices (remainingMask read targetSel)).length <
        (pcrIndices targetSel.pcrSelect.data).length ↔ HitsBank read targetSel := by
  have short := targetSel.pcrSelect.length_le
  have shortMask : (remainingMask read targetSel).length ≤ tpmPcrSelectMax := by
    rw [length_remainingMask]
    exact short
  have sorted := pcrIndices_pairwise shortMask
  constructor
  · intro shorter
    by_contra misses
    have same : pcrIndices (remainingMask read targetSel) =
        pcrIndices targetSel.pcrSelect.data := by
      apply sorted.eq_of_mem_iff (pcrIndices_pairwise short)
      intro pcr
      rw [mem_remainingMask]
      constructor
      · exact And.left
      · intro listed
        refine ⟨listed, fun readSel found => ?_⟩
        by_contra hit
        exact misses ⟨readSel, found, pcr.toNat, ((mem_pcrIndices short).mp listed).2, by
          simpa using hit⟩
    rw [same] at shorter
    omega
  · rintro ⟨readSel, found, pcr, selected, reported⟩
    obtain ⟨listed, toNat⟩ := mem_pcrIndices_of_selected short selected
    have cleared : UInt32.ofNat pcr ∉ pcrIndices (remainingMask read targetSel) := by
      intro kept
      have missed := (mem_remainingMask.mp kept).2 readSel found
      rw [toNat, reported] at missed
      cases missed
    have distinct : (UInt32.ofNat pcr :: pcrIndices (remainingMask read targetSel)).Nodup :=
      List.nodup_cons.mpr ⟨cleared, sorted.imp fun lt => UInt32.ne_of_lt lt⟩
    have within : UInt32.ofNat pcr :: pcrIndices (remainingMask read targetSel) ⊆
        pcrIndices targetSel.pcrSelect.data :=
      List.cons_subset.mpr ⟨listed, fun _ kept => (mem_remainingMask.mp kept).1⟩
    exact (List.subperm_of_subset distinct within).length_le

/-- A mask gains no PCRs. -/
theorem length_remaining_le : (pcrIndices (remainingMask read targetSel)).length ≤
    (pcrIndices targetSel.pcrSelect.data).length := by
  have shortMask : (remainingMask read targetSel).length ≤ tpmPcrSelectMax := by
    rw [length_remainingMask]
    exact targetSel.pcrSelect.length_le
  have distinct := (pcrIndices_pairwise shortMask).imp fun lt => UInt32.ne_of_lt lt
  apply (List.subperm_of_subset distinct ?_).length_le
  exact fun _ kept => (mem_remainingMask.mp kept).1

/-- What `updateRemainingSelection` pushes for a bank. -/
def withoutRead (read : TpmlPcrSelection) (targetSel : TpmsPcrSelection) : TpmsPcrSelection :=
  ⟨targetSel.hash, remainingMask read targetSel, by
    rw [length_remainingMask]
    exact targetSel.pcrSelect.length_le⟩

theorem pushRemaining_eq_ok (read : TpmlPcrSelection) (targetSel : TpmsPcrSelection)
    (room : updated.items.length < 8) :
    ∃ pushed : TpmlPcrSelection, pushRemaining read updated targetSel = .ok pushed ∧
      pushed.items = updated.items ++ [withoutRead read targetSel] := by
  have short : (remainingMask read targetSel).length ≤ tpmPcrSelectMax := by
    rw [length_remainingMask]
    exact targetSel.pcrSelect.length_le
  have accepted : TpmsPcrSelect.tryFrom (remainingMask read targetSel) =
      .ok (withoutRead read targetSel).pcrSelect :=
    dif_neg (Nat.not_lt.mpr short)
  have fits : (updated.items ++ [withoutRead read targetSel]).length ≤ 8 := by
    rw [List.length_append, List.length_singleton]
    omega
  have pushed : updated.tryPush (withoutRead read targetSel) = .ok ⟨_, fits⟩ :=
    TpmList.tryPush_eq_ok.mpr ⟨by omega, rfl⟩
  refine ⟨⟨_, fits⟩, ?_, rfl⟩
  show (TpmsPcrSelect.tryFrom (remainingMask read targetSel)).mapError _ >>= _ = _
  rw [accepted]
  show (updated.tryPush (withoutRead read targetSel)).mapError _ = _
  rw [pushed]
  rfl

/-- Each bank keeps its place and loses what has been read of it. -/
theorem updateRemainingSelection_ok (remaining read : TpmlPcrSelection) :
    ∃ updated : TpmlPcrSelection, updateRemainingSelection remaining read = .ok updated ∧
      updated.items = remaining.items.map (withoutRead read) := by
  suffices pushed : ∀ (items : List TpmsPcrSelection) (before : TpmlPcrSelection),
      before.items.length + items.length ≤ 8 → ∃ after : TpmlPcrSelection,
        items.foldlM (pushRemaining read) before = .ok after ∧
          after.items = before.items ++ items.map (withoutRead read) from
    pushed remaining.items .new (by simpa [TpmList.new] using remaining.length_le)
  intro items
  induction items with
  | nil => exact fun before _ => ⟨before, rfl, by simp⟩
  | cons targetSel items ih =>
      intro before room
      rw [List.length_cons] at room
      have free : before.items.length < 8 := by omega
      obtain ⟨middle, step, placed⟩ := pushRemaining_eq_ok read targetSel free
      obtain ⟨after, ok, all⟩ := ih middle (by rw [placed, List.length_append]; simp; omega)
      refine ⟨after, ?_, by rw [all, placed]; simp⟩
      rw [List.foldlM_cons, step]
      exact ok

theorem updateRemainingSelection_eq_ok
    (ok : updateRemainingSelection remaining read = .ok updated) :
    updated.items = remaining.items.map (withoutRead read) := by
  obtain ⟨updated', ok', items⟩ := updateRemainingSelection_ok remaining read
  rw [ok] at ok'
  cases ok'
  exact items

/-- The reply lowers the number of PCRs that remain, if it reports one of them. -/
theorem selectedPcrs_lt_iff (ok : updateRemainingSelection remaining read = .ok updated) :
    selectedPcrs updated < selectedPcrs remaining ↔ Reports remaining read := by
  have after : selectedPcrs updated = (remaining.items.map fun targetSel =>
      (pcrIndices (remainingMask read targetSel)).length).sum := by
    rw [selectedPcrs, updateRemainingSelection_eq_ok ok, List.map_map]
    rfl
  rw [after, selectedPcrs]
  constructor
  · intro lower
    by_contra misses
    have same : remaining.items.map (fun targetSel =>
        (pcrIndices (remainingMask read targetSel)).length) =
          remaining.items.map fun s => (pcrIndices s.pcrSelect.data).length := by
      apply List.map_congr_left
      intro targetSel mem
      by_contra other
      exact misses ⟨targetSel, mem,
        length_remaining_lt_iff.mp (Nat.lt_of_le_of_ne length_remaining_le other)⟩
    rw [same] at lower
    omega
  · rintro ⟨targetSel, mem, hits⟩
    apply List.sum_lt_sum
    · intro _ _
      exact length_remaining_le
    · exact ⟨targetSel, mem, length_remaining_lt_iff.mpr hits⟩

end

/-- Where no PCRs are selected, all bytes are zero. -/
theorem isSelectionEmpty_of_none {selection : TpmlPcrSelection}
    (none : selectedPcrs selection = 0) :
    isSelectionEmpty selection = true := by
  rw [isSelectionEmpty, List.all_eq_true]
  intro s mem
  have unselected : pcrIndices s.pcrSelect.data = [] := by
    apply List.length_eq_zero_iff.mp
    exact List.sum_eq_zero_iff.mp none _ (List.mem_map_of_mem mem)
  rw [List.all_eq_true]
  intro byte listed
  obtain ⟨byteIndex, found⟩ := List.mem_iff_getElem?.mp listed
  by_contra nonzero
  have positive : byte.toNat ≠ 0 := fun zero => nonzero (by simpa using UInt8.toNat_inj.mp zero)
  obtain ⟨bitIndex, set⟩ := Nat.exists_testBit_of_ne_zero positive
  have low : bitIndex < 8 := by
    by_contra high
    have ge := Nat.ge_two_pow_of_testBit set
    have le := Nat.pow_le_pow_right (n := 2) (by decide) (Nat.not_lt.mp high)
    have small := byte.toNat_lt
    omega
  have quotient : (8 * byteIndex + bitIndex) / 8 = byteIndex := by omega
  have remainder : (8 * byteIndex + bitIndex) % 8 = bitIndex := by omega
  have selected : pcrSelected s.pcrSelect.data (8 * byteIndex + bitIndex) := by
    rw [pcrSelected, quotient, remainder, List.getD_eq_getElem?_getD, found, Option.getD_some]
    exact set
  have pcr := (mem_pcrIndices_of_selected s.pcrSelect.length_le selected).1
  rw [unselected] at pcr
  cases pcr

/-- Each reply with which a round succeeds reports a PCR that remains to be read. -/
def RepliesProgress (device : TpmDevice) : Prop :=
  ∀ start device₀, selectAllPcrs.run device = .ok start device₀ →
    ∀ reading device', Rounds.Reaches PcrReading.done readPcrs start device₀ reading device' →
      reading.done = false → ∀ next device'', (readPcrs reading).run device' = .ok next device'' →
        ∀ pcrSelectionOut pcrValues device₁, (pcrRead reading.remainingSelection).run device' =
          .ok (pcrSelectionOut, pcrValues) device₁ →
            Reports reading.remainingSelection pcrSelectionOut

/-- How many PCRs `readAllPcrs` selects on a device. -/
def pcrRequestLimit (device : TpmDevice) : Nat :=
  match selectAllPcrs.run device with
  | .ok reading _ => selectedPcrs reading.remainingSelection
  | .error _ _ => 0

open TpmDevice (SentAtMost)

/-- A program that sends no frames, behind one that sends some. -/
theorem sends_before {α β : Type} {n : Nat} {program : Fallible PcrError TpmDevice α}
    {next : α → Fallible PcrError TpmDevice β} (first : Fallible.Moves (SentAtMost n) program)
    (silent : ∀ a, Fallible.Moves (SentAtMost 0) (next a)) :
    Fallible.Moves (SentAtMost n) (program >>= next) := by
  refine Fallible.Moves.andThen (R := SentAtMost n) (S := SentAtMost 0) ?_ id first silent
  exact fun before behind => before.trans behind

theorem readPcrs_sends (reading : PcrReading) :
    Fallible.Moves (SentAtMost 1) (readPcrs reading) := by
  have silent {n : Nat} (device : TpmDevice) : SentAtMost n device device := Nat.le_add_right _ _
  apply sends_before
  · apply sends_before
    · exact Fallible.Moves.adaptExcept _ (TpmDevice.transmit_sends _ _)
    · intro resp
      exact sends_before (Fallible.Moves.ofExcept silent _) fun _ => .pure silent _
  · intro reply
    exact sends_before (Fallible.Moves.ofExcept silent _) fun _ =>
      sends_before (Fallible.Moves.ofExcept silent _) fun _ => .pure silent _

/-- A round lowers the number of PCRs that remain to be read, if the reply reports one of them. -/
theorem readPcrs_lowers {reading next : PcrReading} {device device' : TpmDevice}
    (reports : ∀ pcrSelectionOut pcrValues device'',
      (pcrRead reading.remainingSelection).run device = .ok (pcrSelectionOut, pcrValues) device'' →
        Reports reading.remainingSelection pcrSelectionOut)
    (ran : (readPcrs reading).run device = .ok next device') :
    selectedPcrs next.remainingSelection < selectedPcrs reading.remainingSelection := by
  obtain ⟨⟨pcrSelectionOut, pcrValues⟩, device₁, replied, ran⟩ := Fallible.run_bind_eq_ok.mp ran
  obtain ⟨results, device₂, -, ran⟩ := Fallible.run_bind_eq_ok.mp ran
  obtain ⟨remaining, device₃, updated, ran⟩ := Fallible.run_bind_eq_ok.mp ran
  cases ran
  have update := (Fallible.run_ofExcept_eq_ok.mp updated).1
  exact (selectedPcrs_lt_iff update).mpr (reports _ _ _ replied)

/-- Where every reply with which a round succeeds reports a PCR that remains to be read, all PCRs
are read, or the reading fails, after as many requests as there are selected PCRs. -/
theorem readAllPcrs_ends (device : TpmDevice) (progress : RepliesProgress device) :
    (∀ device', (readAllPcrs (pcrRequestLimit device)).run device ≠ .ok none device') ∧
      SentAtMost (pcrRequestLimit device) (Fallible.after (selectAllPcrs.run device))
        (Fallible.after ((readAllPcrs (pcrRequestLimit device)).run device)) := by
  rw [pcrRequestLimit, readAllPcrs, EStateM.run_bind]
  cases selected : selectAllPcrs.run device with
  | error e device₀ => exact ⟨nofun, Nat.le_refl _⟩
  | ok start device₀ =>
      dsimp only
      constructor
      · have ends : Rounds.EndsWithin PcrReading.done readPcrs
            (selectedPcrs start.remainingSelection) start device₀ := by
          apply Rounds.endsWithin_of_lowers fun reading : PcrReading =>
            selectedPcrs reading.remainingSelection
          · intro reading goes
            apply Nat.pos_of_ne_zero
            intro none
            rw [PcrReading.done, isSelectionEmpty_of_none none] at goes
            cases goes
          · intro reading device₁ next device₂ reached goes ran
            have reports := progress start device₀ selected reading device₁ reached goes
            exact readPcrs_lowers (reports next device₂ ran) ran
        intro device' stopped
        obtain ⟨ended, device₁, ran, mapped⟩ := Fallible.run_bind_eq_ok.mp stopped
        cases ended with
        | none => exact ends device₁ ran
        | some reading => cases mapped
      · rw [Fallible.after_bind_pure]
        apply Rounds.loop_moves (R := SentAtMost) _ _ _ readPcrs_sends
        · exact fun _ _ => Nat.le_add_right _ _
        · intro n a b c first rest
          rw [Nat.add_comm]
          exact SentAtMost.trans first rest
        · exact fun first => first.mono (Nat.le_add_left _ _)

/-- A device that answers its requests with `replies`, one after another, and all later ones with
`later`. -/
def answeringTpm (replies : List Bytes) (later : Bytes) : TpmDevice where
  transport sent := .response (replies.getD (sent.length - 1) later)
  sent := []
  entropy := []
  policyRuns := []

/-- The capability of a device whose one bank has some of the first eight PCRs. -/
def oneBank (pcrs : UInt8) : Bytes :=
  [0x80, 1, 0, 0, 0, 25, 0, 0, 0, 0, 0, 0, 0, 0, 5, 0, 0, 0, 1, 0, 0x0B, 3, pcrs, 0, 0]

/-- A reply to `PCR_Read` with one of these PCRs. -/
def onePcr (pcrs value : UInt8) : Bytes :=
  [0x80, 1, 0, 0, 0, 62, 0, 0, 0, 0, 0, 0, 0, 0, 0, 0, 0, 1, 0, 0x0B, 3, pcrs, 0, 0, 0, 0, 0, 1, 0,
    32] ++
    List.replicate 32 value

/-- A reply to `PCR_Read` without PCRs. -/
def noPcr : Bytes := [0x80, 1, 0, 0, 0, 22, 0, 0, 0, 0, 0, 0, 0, 0, 0, 0, 0, 0, 0, 0, 0, 0]

/-- A device with the PCRs 0 and 1: it reports PCR 1 first, and PCR 0 when it is asked again. -/
def twoPcrTpm : TpmDevice := answeringTpm [oneBank 3, onePcr 2 0xCD] (onePcr 1 0xAB)

theorem length_firstPcrs (pcrs : UInt8) : [pcrs, 0, 0].length ≤ tpmPcrSelectMax := Nat.le_succ 3

/-- Some of the first eight PCRs of the bank. -/
def firstPcrs (pcrs : UInt8) : TpmsPcrSelection := ⟨.sha256, ⟨[pcrs, 0, 0], length_firstPcrs pcrs⟩⟩

def pcr0 : TpmlPcrSelection := ⟨[firstPcrs 1], by decide⟩
def pcr1 : TpmlPcrSelection := ⟨[firstPcrs 2], by decide⟩
def bothPcrs : TpmlPcrSelection := ⟨[firstPcrs 3], by decide⟩

/-- The digests that this device holds. -/
def twoPcrsHeld (_ : TpmAlgId) (pcr : UInt32) : Tpm2bDigest :=
  if pcr = 0 then ⟨List.replicate 32 0xAB, by decide, by decide⟩
  else ⟨List.replicate 32 0xCD, by decide, by decide⟩

/-- What remains to be read when this device is asked, and what it answers. -/
def twoPcrReplies : List (TpmlPcrSelection × TpmlPcrSelection × List Tpm2bDigest) :=
  [(bothPcrs, pcr1, [twoPcrsHeld .sha256 1]), (pcr0, pcr0, [twoPcrsHeld .sha256 0])]

/-- The reply to the next request is one of the listed ones. -/
def PcrReading.repliesIn
    (replies : List (TpmlPcrSelection × TpmlPcrSelection × List Tpm2bDigest))
    (reading : PcrReading) (device : TpmDevice) : Bool :=
  (Fallible.value? ((pcrRead reading.remainingSelection).run device)).any fun reply =>
    decide ((reading.remainingSelection, reply.1, reply.2.items) ∈ replies)

/-- The device with two PCRs is asked twice. -/
theorem twoPcrTpm_replies {start reading : PcrReading} {device₀ device' : TpmDevice}
    (selected : selectAllPcrs.run twoPcrTpm = .ok start device₀)
    (reached : Rounds.Reaches PcrReading.done readPcrs start device₀ reading device')
    (goes : reading.done = false) : ∃ pcrSelectionOut pcrValues device'',
      (pcrRead reading.remainingSelection).run device' =
        .ok (pcrSelectionOut, pcrValues) device'' ∧
      ((reading.remainingSelection = bothPcrs ∧ pcrSelectionOut = pcr1 ∧
          pcrValues.items = [twoPcrsHeld .sha256 1]) ∨
        (reading.remainingSelection = pcr0 ∧ pcrSelectionOut = pcr0 ∧
          pcrValues.items = [twoPcrsHeld .sha256 0])) := by
  have rounds : (Fallible.value? (selectAllPcrs.run twoPcrTpm)).all (fun start =>
      Rounds.passes PcrReading.done readPcrs (PcrReading.repliesIn twoPcrReplies) 2 start
        (Fallible.after (selectAllPcrs.run twoPcrTpm))) = true := by
    decide +kernel
  rw [selected] at rounds
  obtain ⟨⟨pcrSelectionOut, pcrValues⟩, replied, listed⟩ :=
    (Option.any_eq_true _ _).mp (reached.passed goes rounds)
  have listed := of_decide_eq_true listed
  simp only [twoPcrReplies, List.mem_pair, Prod.mk.injEq] at listed
  exact ⟨pcrSelectionOut, pcrValues, _, Fallible.value?_eq_some.mp replied, listed⟩

/-- The device with two PCRs makes progress. -/
theorem twoPcrTpm_progress : RepliesProgress twoPcrTpm := by
  intro start device₀ selected reading device' reached goes next device'' ran pcrSelectionOut
    pcrValues device₁ replied
  obtain ⟨_, _, _, replied', answer⟩ := twoPcrTpm_replies selected reached goes
  rw [replied] at replied'
  cases replied'
  obtain ⟨remaining, rfl, -⟩ | ⟨remaining, rfl, -⟩ := answer
  · rw [remaining]
    exact ⟨_, List.mem_singleton_self _, _, rfl, 1, by decide, by decide⟩
  · rw [remaining]
    exact ⟨_, List.mem_singleton_self _, _, rfl, 0, by decide, by decide⟩

theorem readAllPcrs_ends_twoPcrs :
    (∀ device', (readAllPcrs (pcrRequestLimit twoPcrTpm)).run twoPcrTpm ≠ .ok none device') ∧
      SentAtMost (pcrRequestLimit twoPcrTpm) (Fallible.after (selectAllPcrs.run twoPcrTpm))
        (Fallible.after ((readAllPcrs (pcrRequestLimit twoPcrTpm)).run twoPcrTpm)) :=
  readAllPcrs_ends _ twoPcrTpm_progress

theorem not_readAllPcrs_ends : ¬ ∀ device device',
    (readAllPcrs (pcrRequestLimit device)).run device ≠ .ok none device' := by
  intro ends
  have goesOn : Fallible.value? ((readAllPcrs (pcrRequestLimit (answeringTpm [oneBank 1]
      noPcr))).run (answeringTpm [oneBank 1] noPcr)) = some none := by
    have evaluated : (Fallible.value? ((readAllPcrs (pcrRequestLimit (answeringTpm [oneBank 1]
        noPcr))).run (answeringTpm [oneBank 1] noPcr))).any Option.isNone = true := by
      decide +kernel
    obtain ⟨result, found, none⟩ := (Option.any_eq_true _ _).mp evaluated
    rw [found, Option.isNone_iff_eq_none.mp none]
  exact ends _ _ (Fallible.value?_eq_some.mp goesOn)

/-- A reply without PCRs leaves the selection as it was. -/
theorem updateRemainingSelection_new (remaining : TpmlPcrSelection) :
    updateRemainingSelection remaining .new = .ok remaining := by
  obtain ⟨updated, ok, items⟩ := updateRemainingSelection_ok remaining .new
  have same : updated.items = remaining.items := items.trans (List.map_id _)
  rw [ok, TpmList.ext same]

/-- A device that goes on answering without PCRs is asked for ever. -/
theorem readPcrs_never_ends {reading : PcrReading} (goes : reading.done = false)
    {silent : TpmDevice → Prop} (answers : ∀ device, silent device → ∃ device',
      (pcrRead reading.remainingSelection).run device = .ok (.new, .new) device' ∧ silent device')
    {device : TpmDevice} (now : silent device) (rounds : Nat) :
    ¬ Rounds.EndsWithin PcrReading.done readPcrs rounds reading device := by
  apply Rounds.not_endsWithin_of_stuck goes silent _ now
  intro device' still
  obtain ⟨device'', replied, later⟩ := answers device' still
  refine ⟨device'', ?_, later⟩
  rw [readPcrs, EStateM.run_bind, replied]
  show (Fallible.ofExcept (.ok reading.results) >>= _ : Fallible PcrError TpmDevice _).run _ = _
  rw [EStateM.run_bind, Fallible.run_ofExcept_ok, updateRemainingSelection_new]
  rfl

end Tpm2
