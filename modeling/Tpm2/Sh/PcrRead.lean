import Mathlib.Data.Set.Basic
import Tpm2.Sh.Pcr

/-! Reading all PCRs: what is returned is what the device holds. The PCRs that remain to be read are
a set, from which each reply takes those that it reports. -/

namespace Tpm2

open ByteCodec

open TpmDevice (fetchPcrBankList)

/-- The PCRs that a list of selections selects: bank and index. -/
def pcrsOf (items : List TpmsPcrSelection) : Set (TpmAlgId × UInt32) :=
  {pcr | ∃ s ∈ items, s.hash = pcr.1 ∧ pcr.2 ∈ pcrIndices s.pcrSelect.data}

/-- The values of the PCRs of a list of selections: bank after bank, by ascending index. -/
def pcrValuesOf (held : TpmAlgId → UInt32 → Tpm2bDigest) (items : List TpmsPcrSelection) :
    List Tpm2bDigest :=
  items.flatMap fun s => (pcrIndices s.pcrSelect.data).map (held s.hash)

/-- A reply to `PCR_Read` of a device that holds the values `held`: it selects some of the PCRs that
remain to be read, with at most one selection for each bank, and has their values. -/
structure AnswersRead (held : TpmAlgId → UInt32 → Tpm2bDigest)
    (remaining pcrSelectionOut : TpmlPcrSelection) (pcrValues : TpmlDigest) : Prop where
  distinct : (pcrSelectionOut.items.map TpmsPcrSelection.hash).Nodup
  banks : ∀ s ∈ pcrSelectionOut.items, ∃ targetSel ∈ remaining.items, targetSel.hash = s.hash
  subset : pcrsOf pcrSelectionOut.items ⊆ pcrsOf remaining.items
  nonempty : (pcrsOf pcrSelectionOut.items).Nonempty
  values : pcrValues.items = pcrValuesOf held pcrSelectionOut.items

/-- The device answers each request of `readAllPcrs` for PCRs that remain to be read. -/
def AnswersReads (held : TpmAlgId → UInt32 → Tpm2bDigest) (device : TpmDevice) : Prop :=
  ∀ start device₀, selectAllPcrs.run device = .ok start device₀ →
    ∀ reading device', Rounds.Reaches PcrReading.done readPcrs start device₀ reading device' →
      reading.done = false → ∃ pcrSelectionOut pcrValues device'',
        (pcrRead reading.remainingSelection).run device' =
          .ok (pcrSelectionOut, pcrValues) device'' ∧
        AnswersRead held reading.remainingSelection pcrSelectionOut pcrValues

/-- The value that is stored for a PCR. -/
def storedPcr (results : PcrResults) (alg : TpmAlgId) (pcr : UInt32) : Option Tpm2bDigest :=
  (results.lookup alg).bind fun bankStore => bankStore.lookup pcr

/-- The results are the values of a set of PCRs. -/
def StoresExactly (held : TpmAlgId → UInt32 → Tpm2bDigest) (results : PcrResults)
    (pcrs : Set (TpmAlgId × UInt32)) : Prop :=
  ∀ alg pcr value, storedPcr results alg pcr = some value ↔
    (alg, pcr) ∈ pcrs ∧ value = held alg pcr

section
variable {held : TpmAlgId → UInt32 → Tpm2bDigest} {items : List TpmsPcrSelection}
  {results : PcrResults} {pcrs : Set (TpmAlgId × UInt32)}

theorem mem_pcrIndices_iff_selected (select : TpmsPcrSelect) {pcr : UInt32} :
    pcr ∈ pcrIndices select.data ↔ pcrSelected select.data pcr.toNat := by
  rw [mem_pcrIndices select.length_le]
  constructor
  · exact And.right
  · intro selected
    have listed := (mem_pcrIndices_of_selected select.length_le selected).1
    rw [UInt32.ofNat_toNat] at listed
    exact (mem_pcrIndices select.length_le).mp listed

/-- The digests of a bank are stored in the order of its PCRs. -/
theorem storeBank_ok (value : UInt32 → Tpm2bDigest) (indices : List UInt32)
    (rest : List Tpm2bDigest) (bankStore : HashMap UInt32 Tpm2bDigest) :
    ∃ stored, storeBank indices (indices.map value ++ rest) bankStore = .ok (stored, rest) ∧
      ∀ pcr, stored.lookup pcr =
        if pcr ∈ indices then some (value pcr) else bankStore.lookup pcr := by
  induction indices generalizing bankStore with
  | nil => exact ⟨bankStore, rfl, fun pcr => by simp⟩
  | cons pcrIdx indices ih =>
      obtain ⟨stored, ok, lookup⟩ := ih (bankStore.insert pcrIdx (value pcrIdx))
      refine ⟨stored, ok, ?_⟩
      intro pcr
      rw [lookup, HashMap.lookup_insert_ite]
      by_cases later : pcr ∈ indices
      · simp [later]
      · by_cases first : pcr = pcrIdx
        · simp [first]
        · simp [later, first]

/-- The digests of a reply are stored under the PCRs that it selects. -/
theorem storeValues_ok (known : ∀ s ∈ items, (results.lookup s.hash).isSome)
    (before : StoresExactly held results pcrs) :
    ∃ stored, storeValues items (pcrValuesOf held items) results = .ok stored ∧
      (∀ alg, (stored.lookup alg).isSome = (results.lookup alg).isSome) ∧
      StoresExactly held stored (pcrs ∪ pcrsOf items) := by
  induction items generalizing results pcrs with
  | nil => exact ⟨results, rfl, fun _ => rfl, by simpa [pcrsOf] using before⟩
  | cons s items ih =>
      obtain ⟨bankStore, found⟩ := Option.isSome_iff_exists.mp (known s List.mem_cons_self)
      obtain ⟨bankStore', filled, lookup⟩ := storeBank_ok (held s.hash)
        (pcrIndices s.pcrSelect.data) (pcrValuesOf held items) bankStore
      have keys (alg : TpmAlgId) : ((results.insert s.hash bankStore').lookup alg).isSome =
          (results.lookup alg).isSome := by
        rw [HashMap.lookup_insert_ite]
        split
        next same => rw [same, found]; rfl
        next => rfl
      have stored : StoresExactly held (results.insert s.hash bankStore')
          (pcrs ∪ pcrsOf [s]) := by
        intro alg pcr value
        have old := before alg pcr value
        rw [storedPcr] at old
        rw [storedPcr, HashMap.lookup_insert_ite]
        by_cases same : alg = s.hash
        · subst same
          rw [found, Option.bind_some] at old
          rw [if_pos rfl, Option.bind_some, lookup]
          by_cases selected : pcr ∈ pcrIndices s.pcrSelect.data
          · simp [pcrsOf, selected, eq_comm]
          · simp [pcrsOf, selected, old]
        · have other : ¬ s.hash = alg := fun eq => same eq.symm
          rw [if_neg same, old]
          simp [pcrsOf, other]
      obtain ⟨last, ok, keys', holds⟩ := ih
        (fun s' mem => by rw [keys]; exact known s' (List.mem_cons_of_mem _ mem)) stored
      refine ⟨last, ?_, fun alg => (keys' alg).trans (keys alg), ?_⟩
      · rw [storeValues, found]
        show (storeBank _ (pcrValuesOf held (s :: items)) bankStore >>= _) = _
        rw [pcrValuesOf, List.flatMap_cons]
        exact (congrArg (· >>= _) filled).trans ok
      · have union : pcrs ∪ pcrsOf [s] ∪ pcrsOf items = pcrs ∪ pcrsOf (s :: items) := by
          ext pcr
          simp [pcrsOf, or_assoc]
        rwa [union] at holds

/-- Where the reply has one selection for each bank, what it reports is taken from the PCRs that
remain. -/
theorem pcrsOf_withoutRead {read : TpmlPcrSelection}
    (distinct : (read.items.map TpmsPcrSelection.hash).Nodup) :
    pcrsOf (items.map (withoutRead read)) = pcrsOf items \ pcrsOf read.items := by
  have unreported {targetSel : TpmsPcrSelection} {pcr : UInt32} :
      (∀ readSel, (read.items.find? fun s => s.hash = targetSel.hash) = some readSel →
        pcrSelected readSel.pcrSelect.data pcr.toNat = false) ↔
      (targetSel.hash, pcr) ∉ pcrsOf read.items := by
    constructor
    · rintro missed ⟨readSel, mem, hash, listed⟩
      cases found : read.items.find? fun s => s.hash = targetSel.hash with
      | none => simpa [hash] using List.find?_eq_none.mp found readSel mem
      | some first =>
          have firstHash : first.hash = targetSel.hash := by simpa using List.find?_some found
          have same : first = readSel := List.inj_on_of_nodup_map distinct
            (List.mem_of_find?_eq_some found) mem (firstHash.trans hash.symm)
          have selected := (mem_pcrIndices_iff_selected _).mp listed
          rw [← same, missed first found] at selected
          cases selected
    · intro unlisted readSel found
      by_contra selected
      have hash : readSel.hash = targetSel.hash := by simpa using List.find?_some found
      exact unlisted ⟨readSel, List.mem_of_find?_eq_some found, hash,
        (mem_pcrIndices_iff_selected _).mpr (by simpa using selected)⟩
  ext ⟨alg, pcr⟩
  constructor
  · rintro ⟨s, mem, rfl, listed⟩
    obtain ⟨targetSel, target, rfl⟩ := List.mem_map.mp mem
    obtain ⟨kept, missed⟩ := mem_remainingMask.mp listed
    exact ⟨⟨targetSel, target, rfl, kept⟩, unreported.mp missed⟩
  · rintro ⟨⟨targetSel, target, rfl, kept⟩, unlisted⟩
    exact ⟨withoutRead read targetSel, List.mem_map_of_mem target, rfl,
      mem_remainingMask.mpr ⟨kept, unreported.mpr unlisted⟩⟩

/-- Where all bytes are zero, no PCRs are selected. -/
theorem pcrsOf_of_isSelectionEmpty {selection : TpmlPcrSelection}
    (empty : isSelectionEmpty selection = true) : pcrsOf selection.items = ∅ := by
  rw [Set.eq_empty_iff_forall_notMem]
  rintro pcr ⟨s, mem, -, listed⟩
  have zeros := List.all_eq_true.mp (List.all_eq_true.mp empty s mem)
  have selected := (mem_pcrIndices_iff_selected _).mp listed
  have zero : s.pcrSelect.data.getD (pcr.2.toNat / 8) 0 = 0 := by
    rw [List.getD_eq_getElem?_getD]
    cases found : s.pcrSelect.data[pcr.2.toNat / 8]? with
    | none => rfl
    | some byte => simpa using zeros byte (List.mem_of_getElem? found)
  rw [pcrSelected, zero] at selected
  simp at selected

end

/-- The variables of the loop when the device has been asked for some of `pcrs`: those that are not
in the results remain to be read. -/
structure PartlyRead (held : TpmAlgId → UInt32 → Tpm2bDigest) (pcrs : Set (TpmAlgId × UInt32))
    (reading : PcrReading) : Prop where
  subset : pcrsOf reading.remainingSelection.items ⊆ pcrs
  known : ∀ s ∈ reading.remainingSelection.items, (reading.results.lookup s.hash).isSome
  stored : StoresExactly held reading.results (pcrs \ pcrsOf reading.remainingSelection.items)

section
variable {held : TpmAlgId → UInt32 → Tpm2bDigest} {pcrs : Set (TpmAlgId × UInt32)}
  {reading : PcrReading} {pcrSelectionOut : TpmlPcrSelection} {pcrValues : TpmlDigest}

/-- A reply that selects a PCR which remains to be read reports one. -/
theorem AnswersRead.reports {remaining : TpmlPcrSelection}
    (answers : AnswersRead held remaining pcrSelectionOut pcrValues) :
    Reports remaining pcrSelectionOut := by
  by_contra misses
  obtain ⟨⟨alg, pcr⟩, reported⟩ := answers.nonempty
  obtain ⟨targetSel, mem, hash, listed⟩ := answers.subset reported
  have kept : (alg, pcr) ∈ pcrsOf (remaining.items.map (withoutRead pcrSelectionOut)) := by
    refine ⟨withoutRead pcrSelectionOut targetSel, List.mem_map_of_mem mem, hash, ?_⟩
    refine mem_remainingMask.mpr ⟨listed, fun readSel found => ?_⟩
    by_contra hit
    exact misses ⟨targetSel, mem, readSel, found, pcr.toNat,
      (mem_pcrIndices_iff_selected _).mp listed, by simpa using hit⟩
  rw [pcrsOf_withoutRead answers.distinct] at kept
  exact kept.2 reported

/-- A round whose reply has values of PCRs that remain to be read stores these. -/
theorem readPcrs_ok {device device' : TpmDevice} (inv : PartlyRead held pcrs reading)
    (replied : (pcrRead reading.remainingSelection).run device =
      .ok (pcrSelectionOut, pcrValues) device')
    (answers : AnswersRead held reading.remainingSelection pcrSelectionOut pcrValues) :
    ∃ next, (readPcrs reading).run device = .ok next device' ∧ PartlyRead held pcrs next ∧
      selectedPcrs next.remainingSelection < selectedPcrs reading.remainingSelection := by
  have known : ∀ s ∈ pcrSelectionOut.items, (reading.results.lookup s.hash).isSome := by
    intro s mem
    obtain ⟨targetSel, target, hash⟩ := answers.banks s mem
    rw [← hash]
    exact inv.known targetSel target
  obtain ⟨results, filled, keys, stored⟩ := storeValues_ok known inv.stored
  obtain ⟨updated, update, items⟩ :=
    updateRemainingSelection_ok reading.remainingSelection pcrSelectionOut
  have remains : pcrsOf updated.items =
      pcrsOf reading.remainingSelection.items \ pcrsOf pcrSelectionOut.items := by
    rw [items, pcrsOf_withoutRead answers.distinct]
  refine ⟨⟨updated, results⟩, ?_, ⟨?_, ?_, ?_⟩, (selectedPcrs_lt_iff update).mpr answers.reports⟩
  · rw [readPcrs, EStateM.run_bind, replied]
    dsimp only
    rw [EStateM.run_bind, answers.values, filled, Fallible.run_ofExcept_ok]
    dsimp only
    rw [EStateM.run_bind, update, Fallible.run_ofExcept_ok]
    rfl
  · show pcrsOf updated.items ⊆ pcrs
    rw [remains]
    exact Set.sdiff_subset.trans inv.subset
  · intro s mem
    change s ∈ updated.items at mem
    rw [items] at mem
    obtain ⟨targetSel, target, rfl⟩ := List.mem_map.mp mem
    exact (keys targetSel.hash).trans (inv.known targetSel target)
  · show StoresExactly held results (pcrs \ pcrsOf updated.items)
    have read : pcrs \ pcrsOf updated.items =
        pcrs \ pcrsOf reading.remainingSelection.items ∪ pcrsOf pcrSelectionOut.items := by
      rw [remains, Set.sdiff_sdiff_right,
        Set.inter_eq_self_of_subset_right (answers.subset.trans inv.subset)]
    rw [read]
    exact stored

end

/-- The PCRs of the banks `algs` that have a bit in the mask. -/
def bankPcrs (algs : List TpmAlgId) (mask : TpmsPcrSelect) : Set (TpmAlgId × UInt32) :=
  {pcr | pcr.1 ∈ algs ∧ pcr.2 ∈ pcrIndices mask.data}

section
variable {algs : List TpmAlgId} {mask : TpmsPcrSelect} {device device' : TpmDevice}

/-- A selection has room for eight banks. -/
theorem selectBanks_eq_ok {selection selected : TpmlPcrSelection} :
    algs.foldlM (fun (selection : TpmlPcrSelection) alg =>
        (selection.tryPush ⟨alg, mask⟩).mapError fun _ => PcrError.capacityExceeded) selection =
      .ok selected ↔
    selection.items.length + algs.length ≤ 8 ∧
      selected.items = selection.items ++ algs.map fun alg => ⟨alg, mask⟩ := by
  induction algs generalizing selection with
  | nil =>
      have room := selection.length_le
      simp only [List.foldlM_nil, List.map_nil, List.append_nil, List.length_nil]
      constructor
      · rintro ⟨⟩
        exact ⟨room, rfl⟩
      · rintro ⟨-, items⟩
        rw [TpmList.ext items]
        rfl
  | cons alg algs ih =>
      simp only [List.foldlM_cons, bind_eq_ok, mapError_eq_ok, TpmList.tryPush_eq_ok, ih,
        List.length_cons, List.map_cons]
      constructor
      · rintro ⟨next, ⟨-, pushed⟩, fits, items⟩
        rw [pushed, List.length_append, List.length_singleton] at fits
        exact ⟨by omega, by rw [items, pushed]; simp⟩
      · rintro ⟨fits, items⟩
        have room : (selection.items ++ [(⟨alg, mask⟩ : TpmsPcrSelection)]).length ≤ 8 := by
          rw [List.length_append, List.length_singleton]
          omega
        refine ⟨⟨_, room⟩, ⟨by omega, rfl⟩, ?_, by rw [items]; simp⟩
        rw [List.length_append, List.length_singleton]
        omega

theorem lookup_emptyBanks (results : PcrResults) (alg : TpmAlgId) :
    (algs.foldl (fun results alg => results.insert alg ∅) results).lookup alg =
      if alg ∈ algs then some ∅ else results.lookup alg := by
  induction algs generalizing results with
  | nil => simp
  | cons first algs ih =>
      rw [List.foldl_cons, ih, HashMap.lookup_insert_ite]
      by_cases later : alg ∈ algs
      · simp [later]
      · by_cases same : alg = first
        · simp [same]
        · simp [later, same]

/-- Before the first request, all PCRs of the banks remain to be read. -/
theorem selectAllPcrs_ok (held : TpmAlgId → UInt32 → Tpm2bDigest)
    (banks : fetchPcrBankList.run device = .ok (algs, mask) device') (room : algs.length ≤ 8) :
    ∃ start, selectAllPcrs.run device = .ok start device' ∧
      PartlyRead held (bankPcrs algs mask) start := by
  have fits : (algs.map fun alg => (⟨alg, mask⟩ : TpmsPcrSelection)).length ≤ 8 := by
    rwa [List.length_map]
  have selected : algs.foldlM (fun (selection : TpmlPcrSelection) alg =>
      (selection.tryPush ⟨alg, mask⟩).mapError fun _ => PcrError.capacityExceeded) .new =
        .ok ⟨_, fits⟩ :=
    selectBanks_eq_ok.mpr ⟨by simpa [TpmList.new] using room, rfl⟩
  have asked : pcrsOf (algs.map fun alg => ⟨alg, mask⟩) = bankPcrs algs mask := by
    ext pcr
    simp [pcrsOf, bankPcrs]
  refine ⟨⟨⟨_, fits⟩, algs.foldl (fun results alg => results.insert alg ∅) ∅⟩, ?_, ⟨?_, ?_, ?_⟩⟩
  · have fetched : (EStateM.adaptExcept (fun e => PcrError.device (deviceErr e))
        fetchPcrBankList).run device = .ok (algs, mask) device' :=
      Fallible.run_adaptExcept_eq_ok.mpr banks
    rw [selectAllPcrs, EStateM.run_bind, fetched]
    dsimp only
    rw [EStateM.run_bind, selected, Fallible.run_ofExcept_ok]
    rfl
  · exact asked.subset
  · intro s mem
    obtain ⟨alg, listed, rfl⟩ := List.mem_map.mp mem
    rw [lookup_emptyBanks, if_pos listed]
    rfl
  · intro alg pcr value
    dsimp only
    rw [asked, Set.sdiff_self, storedPcr, lookup_emptyBanks]
    split <;> simp

/-- Where the device answers each request with values of PCRs that remain to be read, all PCRs of
its banks are read, and no others, with the values that the device holds. -/
theorem readAllPcrs_complete {held : TpmAlgId → UInt32 → Tpm2bDigest}
    (banks : fetchPcrBankList.run device = .ok (algs, mask) device') (room : algs.length ≤ 8)
    (answers : AnswersReads held device) (rounds : Nat) (enough : pcrRequestLimit device ≤ rounds) :
    ∃ results device'', (readAllPcrs rounds).run device = .ok (some results) device'' ∧
      StoresExactly held results (bankPcrs algs mask) := by
  obtain ⟨start, selected, begins⟩ := selectAllPcrs_ok held banks room
  have limit : pcrRequestLimit device = selectedPcrs start.remainingSelection := by
    rw [pcrRequestLimit, selected]
  have round : ∀ reading device₁,
      Rounds.Reaches PcrReading.done readPcrs start device' reading device₁ ∧
        PartlyRead held (bankPcrs algs mask) reading → reading.done = false →
      ∃ next device₂, (readPcrs reading).run device₁ = .ok next device₂ ∧
        (Rounds.Reaches PcrReading.done readPcrs start device' next device₂ ∧
          PartlyRead held (bankPcrs algs mask) next) ∧
        selectedPcrs next.remainingSelection < selectedPcrs reading.remainingSelection := by
    rintro reading device₁ ⟨reached, inv⟩ goes
    obtain ⟨pcrSelectionOut, pcrValues, device₂, replied, answer⟩ :=
      answers start device' selected reading device₁ reached goes
    obtain ⟨next, ran, kept, lower⟩ := readPcrs_ok inv replied answer
    exact ⟨next, device₂, ran, ⟨reached.round goes ran, kept⟩, lower⟩
  obtain ⟨last, device'', ran, ended, -, inv⟩ :=
    Rounds.loop_returns round rounds ⟨.start, begins⟩ (limit ▸ enough)
  refine ⟨last.results, device'', ?_, ?_⟩
  · rw [readAllPcrs, EStateM.run_bind, selected]
    dsimp only
    rw [EStateM.run_bind, ran]
    rfl
  · have stored := inv.stored
    rw [pcrsOf_of_isSelectionEmpty ended, Set.sdiff_empty] at stored
    exact stored

/-- The PCRs of more than eight banks are not selected. -/
theorem selectAllPcrs_too_many (banks : fetchPcrBankList.run device = .ok (algs, mask) device')
    (many : 8 < algs.length) (start : PcrReading) (device'' : TpmDevice) :
    selectAllPcrs.run device ≠ .ok start device'' := by
  intro selected
  obtain ⟨found, device₁, fetched, selected⟩ := Fallible.run_bind_eq_ok.mp selected
  have same := Fallible.run_adaptExcept_eq_ok.mp fetched
  rw [banks] at same
  cases same
  obtain ⟨selection, device₂, selected, -⟩ := Fallible.run_bind_eq_ok.mp selected
  have fits := (selectBanks_eq_ok.mp (Fallible.run_ofExcept_eq_ok.mp selected).1).1
  omega

end

/-- The device with two PCRs answers as it holds them. -/
theorem twoPcrTpm_answers : AnswersReads twoPcrsHeld twoPcrTpm := by
  intro start device₀ selected reading device' reached goes
  obtain ⟨pcrSelectionOut, pcrValues, device'', replied, answer⟩ :=
    twoPcrTpm_replies selected reached goes
  refine ⟨pcrSelectionOut, pcrValues, device'', replied, ?_⟩
  obtain ⟨remaining, rfl, values⟩ | ⟨remaining, rfl, values⟩ := answer
  · -- PCR 1 is taken from both
    rw [remaining]
    refine ⟨by decide, fun s mem => ⟨_, List.mem_singleton_self _, ?_⟩, ?_, ?_, values⟩
    · rw [List.mem_singleton.mp mem]
      rfl
    · rintro ⟨alg, pcr⟩ ⟨s, mem, bank, selected⟩
      rw [List.mem_singleton.mp mem] at bank selected
      have only : pcrIndices [2, 0, 0] = [1] := by decide
      obtain rfl : pcr = 1 := List.mem_singleton.mp (only ▸ selected)
      have both : 1 ∈ pcrIndices [3, 0, 0] := by decide
      exact ⟨_, List.mem_singleton_self _, bank, both⟩
    · exact ⟨(.sha256, 1), _, List.mem_singleton_self _, rfl, by decide⟩
  · -- only PCR 0 is left
    rw [remaining]
    refine ⟨by decide, fun s mem => ⟨s, mem, rfl⟩, subset_rfl, ?_, values⟩
    exact ⟨(.sha256, 0), _, List.mem_singleton_self _, rfl, by decide⟩

theorem readAllPcrs_complete_twoPcrs : ∃ results device'',
    (readAllPcrs 2).run twoPcrTpm = .ok (some results) device'' ∧
      StoresExactly twoPcrsHeld results (bankPcrs [.sha256] ⟨[3, 0, 0], by decide⟩) := by
  have banks : Fallible.value? (fetchPcrBankList.run twoPcrTpm) =
      some ([.sha256], ⟨[3, 0, 0], by decide⟩) := by
    decide +kernel
  have limit : pcrRequestLimit twoPcrTpm ≤ 2 := by
    decide +kernel
  exact readAllPcrs_complete (Fallible.value?_eq_some.mp banks) (by decide) twoPcrTpm_answers 2
    limit

/-- The banks of a device that has one PCR in each of them. -/
def nineBanks : List TpmAlgId :=
  [.sha1, .sha256, .sha384, .sha512, .sm3_256, .sha3_256, .sha3_384, .sha3_512, .shake128]

/-- The first page of the capability of that device. -/
def eightBanksPage : Bytes :=
  [0x80, 1, 0, 0, 0, 67, 0, 0, 0, 0, 1, 0, 0, 0, 5, 0, 0, 0, 8] ++
    [0x04, 0x0B, 0x0C, 0x0D, 0x12, 0x27, 0x28, 0x29].flatMap fun alg => [0, alg, 3, 1, 0, 0]

/-- The second page. -/
def ninthBankPage : Bytes :=
  [0x80, 1, 0, 0, 0, 25, 0, 0, 0, 0, 0, 0, 0, 0, 5, 0, 0, 0, 1, 0, 0x2A, 3, 1, 0, 0]

theorem fetchPcrBankList_nineBanks : ∃ device',
    fetchPcrBankList.run (answeringTpm [eightBanksPage] ninthBankPage) =
      .ok (nineBanks.mergeSort fun alg other => TpmEnum.value alg ≤ TpmEnum.value other,
        ⟨toBytes 3 0x010000, by decide⟩) device' := by
  have pages : Fallible.value? ((CapabilityList.pcrs.fetch 0 TpmDevice.capabilityPageSize).run
      (answeringTpm [eightBanksPage] ninthBankPage)) =
        some (nineBanks.map fun alg => ⟨alg, toBytes 3 0x010000, by decide⟩) := by
    decide +kernel
  have fetched := Fallible.value?_eq_some.mp pages
  generalize Fallible.after _ = device' at fetched
  refine ⟨device', ?_⟩
  rw [fetchPcrBankList, EStateM.run_bind, fetched]
  rfl

theorem not_readAllPcrs_complete : ¬ ∀ device device' algs mask held,
    fetchPcrBankList.run device = .ok (algs, mask) device' → algs.Nodup →
      AnswersReads held device → ∃ rounds results device'',
        (readAllPcrs rounds).run device = .ok (some results) device'' := by
  intro complete
  obtain ⟨device', banks⟩ := fetchPcrBankList_nineBanks
  have distinct : (nineBanks.mergeSort fun alg other =>
      TpmEnum.value alg ≤ TpmEnum.value other).Nodup :=
    (List.mergeSort_perm _ _).nodup_iff.mpr (by decide)
  have many : 8 < (nineBanks.mergeSort fun alg other =>
      TpmEnum.value alg ≤ TpmEnum.value other).length := by
    rw [List.length_mergeSort]
    decide
  have answers : AnswersReads twoPcrsHeld
      (answeringTpm [eightBanksPage] ninthBankPage) := by
    intro start device₀ selected
    exact absurd selected (selectAllPcrs_too_many banks many _ _)
  obtain ⟨rounds, results, device'', read⟩ := complete _ _ _ _ _ banks distinct answers
  obtain ⟨start, device₁, selected, -⟩ := Fallible.run_bind_eq_ok.mp read
  exact selectAllPcrs_too_many banks many _ _ selected

end Tpm2
