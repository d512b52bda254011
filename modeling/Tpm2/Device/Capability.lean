import Tpm2.Algorithm.Pagination
import Tpm2.Device.Device

/-! Capabilities of a TPM: they are fetched page by page. -/

namespace Tpm2

open ByteCodec

namespace TpmDevice

/-- `CAPABILITY_PAGE_SIZE`, which is `MAX_HANDLES`. -/
def capabilityPageSize : UInt32 := 8

/-- Fetches and returns one page of capabilities of a certain type from the TPM. -/
def getCapabilityPage (cap : TpmCap) (property propertyCount : UInt32) :
    Fallible TpmDeviceError TpmDevice (Bool × TpmsCapabilityData) := do
  let response ← transmit (C := TpmGetCapabilityCommand)
    ⟨⟨[], List.length_nil⟩, (cap, .new property, .new propertyCount, ())⟩ []
  let body ← unmarshalResponse TpmGetCapabilityResponse response
  let (moreData, capabilityData, _) := body.parameters
  return (moreData.val, capabilityData)

/-- The loop of `getCapability`: `results` are those of the pages before `prop`. -/
def getCapabilityFrom {T : Type} (cap : TpmCap) (count : UInt32)
    (extract : TpmuCapabilities → Except TpmDeviceError (List T)) (nextProp : T → UInt32)
    (prop : UInt32) (results : List T) : Fallible TpmDeviceError TpmDevice (List T) := do
  let (moreData, capData) ← getCapabilityPage cap prop count
  let items ← Fallible.ofExcept (extract capData.data)
  let results := results ++ items
  if ¬ moreData then
    return results
  else
    match items.getLast? with
    | none => return results
    | some last =>
        if nextProp last ≤ prop then
          return results
        else
          getCapabilityFrom cap count extract nextProp (nextProp last) results
termination_by UInt32.size - prop.toNat
decreasing_by
  next later =>
  have lt : prop.toNat < (nextProp last).toNat := UInt32.lt_iff_toNat_lt.mp (UInt32.not_le.mp later)
  have small := (nextProp last).toNat_lt
  rw [UInt32.size]
  omega

/-- Fetches a complete list of capabilities from the TPM, handling pagination. -/
def getCapability {T : Type} (cap : TpmCap) (propertyStart count : UInt32)
    (extract : TpmuCapabilities → Except TpmDeviceError (List T)) (nextProp : T → UInt32) :
    Fallible TpmDeviceError TpmDevice (List T) :=
  getCapabilityFrom cap count extract nextProp propertyStart []

end TpmDevice

/-- `u32::saturating_add`. -/
def saturatingAdd32 (lhs rhs : UInt32) : UInt32 :=
  UInt32.ofNat (min (lhs.toNat + rhs.toNat) u32Max)

/-- A capability that is a list: how its items are found in a reply, which property an item has, and
where the page behind it starts. -/
structure CapabilityList (T : Type) where
  cap : TpmCap
  extract : TpmuCapabilities → Except TpmDeviceError (List T)
  property : T → UInt32
  nextProp : T → UInt32
  nextProp_eq : ∀ item, (nextProp item).toNat = min ((property item).toNat + 1) u32Max

namespace CapabilityList

/-- The successor of a 16-bit property does not overflow. -/
theorem toNat_succ16 (value : UInt16) :
    (value.toUInt32 + 1).toNat = min (value.toUInt32.toNat + 1) u32Max := by
  have small : value.toUInt32.toNat < 65536 := by
    rw [UInt16.toNat_toUInt32]
    exact value.toNat_lt
  rw [UInt32.toNat_add, u32Max]
  have one : (1 : UInt32).toNat = 1 := rfl
  omega

theorem toNat_saturatingAdd32 (lhs rhs : UInt32) :
    (saturatingAdd32 lhs rhs).toNat = min (lhs.toNat + rhs.toNat) u32Max := by
  apply UInt32.toNat_ofNat_of_lt'
  rw [u32Max, UInt32.size]
  omega

def algs : CapabilityList TpmsAlgProperty where
  cap := .algs
  extract
    | .algs algs => .ok algs.items
    | _ => .error (.capabilityMissing .algs)
  property item := (TpmEnum.value item.alg).toUInt32
  nextProp last := (TpmEnum.value last.alg).toUInt32 + 1
  nextProp_eq _ := toNat_succ16 _

def handles : CapabilityList TpmHandle where
  cap := .handles
  extract
    | .handles handles => .ok handles.items
    | _ => .error (.capabilityMissing .handles)
  property item := item.value
  nextProp last := saturatingAdd32 last.value 1
  nextProp_eq _ := toNat_saturatingAdd32 _ _

def eccCurves : CapabilityList TpmEccCurve where
  cap := .eccCurves
  extract
    | .eccCurves curves => .ok curves.items
    | _ => .error (.capabilityMissing .eccCurves)
  property item := (TpmEnum.value item).toUInt32
  nextProp last := (TpmEnum.value last).toUInt32 + 1
  nextProp_eq _ := toNat_succ16 _

def pcrs : CapabilityList TpmsPcrSelection where
  cap := .pcrs
  extract
    | .pcrs pcrs => .ok pcrs.items
    | _ => .error (.capabilityMissing .pcrs)
  property item := (TpmEnum.value item.hash).toUInt32
  nextProp last := (TpmEnum.value last.hash).toUInt32 + 1
  nextProp_eq _ := toNat_succ16 _

variable {T : Type} (list : CapabilityList T)

/-- `getCapability` for the list. -/
def fetch (propertyStart count : UInt32) : Fallible TpmDeviceError TpmDevice (List T) :=
  TpmDevice.getCapability list.cap propertyStart count list.extract list.nextProp

/-- The property of an item, as a number. -/
def key (item : T) : Nat := (list.property item).toNat

end CapabilityList

namespace TpmDevice

/-- Retrieves all algorithm properties supported by the TPM. -/
def fetchAlgorithmProperties : Fallible TpmDeviceError TpmDevice (List TpmsAlgProperty) :=
  CapabilityList.algs.fetch 0 capabilityPageSize

/-- Retrieves all handles of a specific type from the TPM. -/
def fetchHandles (ht : TpmHt) : Fallible TpmDeviceError TpmDevice (List TpmHandle) := do
  let prefixed : UInt32 := (TpmEnum.value ht).toUInt32 <<< 24
  let handles ← CapabilityList.handles.fetch prefixed capabilityPageSize
  return handles.filter fun handle => handle.value >>> 24 = (TpmEnum.value ht).toUInt32

/-- Retrieves all available ECC curves supported by the TPM. -/
def fetchEccCurves : Fallible TpmDeviceError TpmDevice (List TpmEccCurve) :=
  CapabilityList.eccCurves.fetch 0 capabilityPageSize

/-- The loop of `fetchPcrBankList` over the banks: the selection that those with PCRs share, and
their algorithms. -/
def activeBanks : List TpmsPcrSelection → Option TpmsPcrSelect → List TpmAlgId →
    Except TpmDeviceError (Option TpmsPcrSelect × List TpmAlgId)
  | [], commonSelect, algs => return (commonSelect, algs)
  | bank :: pcrs, commonSelect, algs => do
      -- an unallocated bank is skipped
      if bank.pcrSelect.data.all (· = 0) then
        activeBanks pcrs commonSelect algs
      else
        match commonSelect with
        | some select =>
            if bank.pcrSelect ≠ select then
              throw .pcrBankSelectionMismatch
            activeBanks pcrs (some select) (algs ++ [bank.hash])
        | none => activeBanks pcrs (some bank.pcrSelect) (algs ++ [bank.hash])

/-- Retrieves the list of active PCR banks and the bank selection mask. -/
def fetchPcrBankList : Fallible TpmDeviceError TpmDevice (List TpmAlgId × TpmsPcrSelect) := do
  let pcrs ← CapabilityList.pcrs.fetch 0 capabilityPageSize
  if pcrs.isEmpty then
    throw .pcrBanksNotAvailable
  let (commonSelect, algs) ← Fallible.ofExcept (activeBanks pcrs none [])
  match commonSelect with
  | some select =>
      return (algs.mergeSort fun alg other => TpmEnum.value alg ≤ TpmEnum.value other, select)
  | none => throw .pcrBanksNotAvailable

/-- Retrieves one property of the TPM. -/
def fetchTpmProperty (property : TpmPt) : Fallible TpmDeviceError TpmDevice UInt32 := do
  let (_, capData) ← getCapabilityPage .tpmProperties (TpmEnum.value property) 1
  match capData.data with
  | .tpmProperties props =>
      match props.items.find? fun prop => prop.property = property with
      | some prop => return prop.value.value
      | none => throw (.capabilityMissing .tpmProperties)
  | _ => throw (.capabilityMissing .tpmProperties)

/-- The loop of `findPersistent`. -/
def findName (targetName : Tpm2bName) :
    List TpmHandle → Fallible TpmDeviceError TpmDevice (Option TpmHandle)
  | [] => return none
  | handle :: handles => do
      match ← Fallible.outcome (readPublic handle) with
      | .ok (_, name) =>
          if name = targetName then return some handle else findName targetName handles
      | .error (.tpmRc rc) =>
          if rc.base = .referenceH0 ∨ rc.base = .handle then
            findName targetName handles
          else
            throw (.tpmRc rc)
      | .error e => throw e

/-- Finds a persistent handle by its `Tpm2bName`. -/
def findPersistent (targetName : Tpm2bName) :
    Fallible TpmDeviceError TpmDevice (Option TpmHandle) := do
  let handles ← fetchHandles .persistent
  findName targetName handles

section
variable {T : Type} {list : CapabilityList T} {count : UInt32}

/-- A round of the loop whose reply can be read. -/
theorem run_getCapabilityFrom {prop : UInt32} {results items : List T} {more : Bool}
    {data : TpmsCapabilityData} {device device' : TpmDevice}
    (page : (getCapabilityPage list.cap prop count).run device = .ok (more, data) device')
    (extracted : list.extract data.data = .ok items) :
    (getCapabilityFrom list.cap count list.extract list.nextProp prop results).run device =
      if ¬ more then .ok (results ++ items) device'
      else match items.getLast? with
        | none => .ok (results ++ items) device'
        | some last =>
            if list.nextProp last ≤ prop then .ok (results ++ items) device'
            else (getCapabilityFrom list.cap count list.extract list.nextProp (list.nextProp last)
              (results ++ items)).run device' := by
  rw [getCapabilityFrom.eq_def, EStateM.run_bind, page]
  dsimp only
  rw [EStateM.run_bind, extracted, Fallible.run_ofExcept_ok]
  dsimp only
  cases more with
  | false => rfl
  | true =>
      rw [if_neg (by simp), if_neg (by simp)]
      cases items.getLast? with
      | none => rfl
      | some last =>
          dsimp only
          by_cases behind : list.nextProp last ≤ prop
          · rw [if_pos behind, if_pos behind]
            rfl
          · rw [if_neg behind, if_neg behind]

/-- A TPM that holds a sorted list of properties. `asked` are the states in which it gets a request
for a page that starts at some property. It answers with a page and then gets the next request. -/
structure Holds (list : CapabilityList T) (count : UInt32) (held : List T)
    (asked : UInt32 → TpmDevice → Prop) : Prop where
  sorted : held.Pairwise fun a b => list.key a < list.key b
  answers : ∀ start device, asked start device → ∃ more data items device',
    (getCapabilityPage list.cap start count).run device = .ok (more, data) device' ∧
    list.extract data.data = .ok items ∧
    Pagination.Page list.key held start.toNat count.toNat items more ∧
    ∀ last, items.getLast? = some last → more = true → asked (list.nextProp last) device'

/-- Where a page behind an item starts, if there is a larger item. -/
theorem nextProp_of_lt {last item : T} (lt : list.key last < list.key item) :
    (list.nextProp last).toNat = list.key last + 1 := by
  have small : list.key item < 4294967296 := (list.property item).toNat_lt
  have next := list.nextProp_eq last
  rw [u32Max] at next
  rw [next]
  unfold CapabilityList.key at lt small ⊢
  omega

theorem getCapabilityFrom_holds {held : List T} {asked : UInt32 → TpmDevice → Prop}
    (holds : Holds list count held asked) (prop : UInt32) (results : List T) (device : TpmDevice)
    (now : asked prop device) : ∃ device',
      (getCapabilityFrom list.cap count list.extract list.nextProp prop results).run device =
        .ok (results ++ Pagination.remaining list.key held prop.toNat) device' := by
  -- each page moves the start up
  induction left : UInt32.size - prop.toNat using Nat.strong_induction_on
    generalizing prop results device with
  | h left ih =>
      obtain ⟨more, data, items, device', answered, extracted, page, next⟩ :=
        holds.answers prop device now
      rw [run_getCapabilityFrom answered extracted]
      cases more with
      | false =>
          rw [page.all]
          exact ⟨device', rfl⟩
      | true =>
          obtain ⟨last, isLast, le, ⟨item, -, larger⟩, split⟩ := page.next holds.sorted
          have start := nextProp_of_lt larger
          have later : ¬ list.nextProp last ≤ prop := by
            rw [UInt32.le_iff_toNat_le, start]
            omega
          have small := (list.nextProp last).toNat_lt
          rw [if_neg (by simp), isLast]
          dsimp only
          rw [if_neg later, split, ← start, ← List.append_assoc]
          apply ih (UInt32.size - (list.nextProp last).toNat) ?_ _ _ _ (next last isLast rfl) rfl
          rw [← left, start, UInt32.size]
          omega

/-- The handles of a class are behind the class's first handle. -/
theorem le_of_class {ht : TpmHt} {handle : TpmHandle}
    (isOf : handle.value >>> 24 = (TpmEnum.value ht).toUInt32) :
    (TpmEnum.value ht).toUInt32 <<< 24 ≤ handle.value := by
  rw [← isOf, UInt32.le_iff_toNat_le, UInt32.toNat_shiftLeft, UInt32.toNat_shiftRight]
  have bits : (24 : UInt32).toNat % 32 = 24 := rfl
  rw [bits, Nat.shiftLeft_eq, Nat.shiftRight_eq_div_pow]
  have le := Nat.div_mul_le_self handle.value.toNat (2 ^ 24)
  exact (Nat.mod_le _ _).trans le

/-- All handles of a class are fetched, and no others. -/
theorem fetchHandles_holds {ht : TpmHt} {held : List TpmHandle}
    {asked : UInt32 → TpmDevice → Prop} {device : TpmDevice}
    (holds : Holds CapabilityList.handles capabilityPageSize held asked)
    (now : asked ((TpmEnum.value ht).toUInt32 <<< 24) device) : ∃ device',
      (fetchHandles ht).run device =
        .ok (held.filter fun handle => handle.value >>> 24 = (TpmEnum.value ht).toUInt32)
          device' := by
  obtain ⟨device', fetched⟩ := getCapabilityFrom_holds holds _ [] device now
  refine ⟨device', ?_⟩
  rw [fetchHandles, CapabilityList.fetch, getCapability, EStateM.run_bind, fetched]
  dsimp only
  rw [List.nil_append, Pagination.remaining, List.filter_filter, EStateM.run_pure]
  congr 1
  apply List.filter_congr
  intro handle _
  by_cases isOf : handle.value >>> 24 = (TpmEnum.value ht).toUInt32
  · have le : ((TpmEnum.value ht).toUInt32 <<< 24).toNat ≤ CapabilityList.handles.key handle :=
      UInt32.le_iff_toNat_le.mp (le_of_class isOf)
    rw [decide_eq_true le, Bool.and_true]
  · rw [decide_eq_false isOf, Bool.false_and]

/-- `n` frames at most are sent between two states. -/
def SentAtMost (n : Nat) (device device' : TpmDevice) : Prop :=
  device'.sent.length ≤ device.sent.length + n

namespace SentAtMost

variable {m n : Nat} {a b c : TpmDevice}

theorem mono (le : m ≤ n) (sent : SentAtMost m a b) : SentAtMost n a b :=
  Nat.le_trans sent (Nat.add_le_add_left le _)

theorem trans (before : SentAtMost m a b) (behind : SentAtMost n b c) :
    SentAtMost (m + n) a c := by
  unfold SentAtMost at *
  omega

end SentAtMost

/-- Every run of the program sends `n` frames at most. -/
def SendsAtMost {α : Type} (n : Nat) (program : Fallible TpmDeviceError TpmDevice α) : Prop :=
  Fallible.Moves (SentAtMost n) program

namespace SendsAtMost

variable {α β : Type} {m n : Nat} {program : Fallible TpmDeviceError TpmDevice α}
  {next : α → Fallible TpmDeviceError TpmDevice β}

theorem bind (first : SendsAtMost m program) (second : ∀ a, SendsAtMost n (next a)) :
    SendsAtMost (m + n) (program >>= next) := by
  refine Fallible.Moves.andThen (R := SentAtMost m) (S := SentAtMost n) ?_ ?_ first second
  · exact fun before behind => before.trans behind
  · exact fun before => before.mono (Nat.le_add_right m n)

theorem mono (le : m ≤ n) (sends : SendsAtMost m program) : SendsAtMost n program :=
  fun device => (sends device).mono le

theorem nothing (device : TpmDevice) : SentAtMost n device device := Nat.le_add_right _ _

theorem pure (a : α) : SendsAtMost n (Pure.pure a) := Fallible.Moves.pure nothing a

theorem throw (e : TpmDeviceError) :
    SendsAtMost n (MonadExcept.throw e : Fallible TpmDeviceError TpmDevice α) :=
  Fallible.Moves.throw nothing e

theorem ofExcept (x : Except TpmDeviceError α) : SendsAtMost n (Fallible.ofExcept x) :=
  Fallible.Moves.ofExcept nothing x

end SendsAtMost

theorem exchange_sends (frame : Bytes) : SendsAtMost 1 (exchange frame) := by
  intro device
  unfold exchange EStateM.run
  dsimp only
  split <;> simp [Fallible.after, SentAtMost]

theorem transmit_sends {C : TpmBodyType} (command : TpmBody C) (sessions : List TpmsAuthCommand) :
    SendsAtMost 1 (transmit command sessions) := by
  refine (SendsAtMost.ofExcept _).bind (m := 0) (n := 1) fun frame =>
    (exchange_sends frame).bind (n := 0) fun answer =>
      (SendsAtMost.ofExcept _).bind (m := 0) (n := 0) fun response =>
        (SendsAtMost.ofExcept _).bind (m := 0) (n := 0) fun outcome => ?_
  cases outcome with
  | dispatched response => exact .pure _
  | rejected rc => exact .throw _

theorem getCapabilityPage_sends (cap : TpmCap) (property propertyCount : UInt32) :
    SendsAtMost 1 (getCapabilityPage cap property propertyCount) :=
  (transmit_sends _ _).bind (n := 0) fun _ =>
    (SendsAtMost.ofExcept _).bind (m := 0) (n := 0) fun _ => .pure _

theorem getCapabilityFrom_sends {cap : TpmCap}
    {extract : TpmuCapabilities → Except TpmDeviceError (List T)} {nextProp : T → UInt32}
    (prop : UInt32) (results : List T) :
    SendsAtMost (UInt32.size - prop.toNat)
      (getCapabilityFrom cap count extract nextProp prop results) := by
  induction remains : UInt32.size - prop.toNat using Nat.strong_induction_on
    generalizing prop results with
  | h left ih =>
      have room : 1 ≤ left := by
        have small := prop.toNat_lt
        rw [← remains, UInt32.size]
        omega
      obtain ⟨n, rfl⟩ := Nat.exists_eq_add_of_le room
      rw [getCapabilityFrom.eq_def]
      apply (getCapabilityPage_sends cap prop count).bind
      intro page
      apply (Nat.zero_add n) ▸ (SendsAtMost.ofExcept (extract page.2.data)).bind
      intro items
      dsimp only
      split
      next => exact .pure _
      next =>
        split
        next => exact .pure _
        next last _ =>
          split
          next => exact .pure _
          next later =>
            have lt : prop.toNat < (nextProp last).toNat :=
              UInt32.lt_iff_toNat_lt.mp (UInt32.not_le.mp later)
            have small := (nextProp last).toNat_lt
            rw [UInt32.size] at remains
            exact (ih (UInt32.size - (nextProp last).toNat) (by rw [UInt32.size]; omega) _ _
              rfl).mono (by rw [UInt32.size]; omega)

/-- A sorted list is fetched whole and in order from a TPM that holds it, however it is cut into
pages, and from any TPM the fetch comes to an end. -/
theorem fetch_pages (list : CapabilityList T) (start count : UInt32) :
    (∀ held asked device, Holds list count held asked → asked start device → ∃ device',
      (list.fetch start count).run device =
        .ok (Pagination.remaining list.key held start.toNat) device') ∧
    SendsAtMost (UInt32.size - start.toNat) (list.fetch start count) := by
  constructor
  · intro held asked device holds now
    exact getCapabilityFrom_holds holds start [] device now
  · exact getCapabilityFrom_sends start []

end

/-- A TPM that holds two handles and answers with pages of one. -/
def pagingTpm : TpmDevice where
  transport sent := .response <|
    if sent.length = 1 then
      [0x80, 1, 0, 0, 0, 23, 0, 0, 0, 0, 1, 0, 0, 0, 1, 0, 0, 0, 1, 0x81, 0, 0, 1]
    else
      [0x80, 1, 0, 0, 0, 23, 0, 0, 0, 0, 0, 0, 0, 0, 1, 0, 0, 0, 1, 0xFF, 0xFF, 0xFF, 0xFF]
  sent := []
  entropy := []
  policyRuns := []

theorem fetch_pages_paging : ∃ device', (CapabilityList.handles.fetch 0 8).run pagingTpm =
    .ok [.new 0x81000001, .new 0xFFFFFFFF] device' := by
  let behind := Fallible.after ((getCapabilityPage .handles 0 8).run pagingTpm)
  have first : Fallible.value? ((getCapabilityPage .handles 0 8).run pagingTpm) =
      some (true, ⟨.handles, .handles ⟨[.new 0x81000001], by decide⟩⟩) := by
    decide +kernel
  have second : Fallible.value? ((getCapabilityPage .handles 0x81000002 8).run behind) =
      some (false, ⟨.handles, .handles ⟨[.new 0xFFFFFFFF], by decide⟩⟩) := by
    decide +kernel
  have holds : Holds CapabilityList.handles 8 [.new 0x81000001, .new 0xFFFFFFFF]
      fun start device => start = 0 ∧ device = pagingTpm ∨
        start = 0x81000002 ∧ device = behind := by
    refine ⟨by decide, ?_⟩
    rintro start device (⟨begins, holder⟩ | ⟨begins, holder⟩)
    · rw [begins, holder]
      refine ⟨true, _, [.new 0x81000001], behind, Fallible.value?_eq_some.mp first, rfl,
        ⟨by decide, by decide, by decide, by decide⟩, ?_⟩
      rintro last ⟨⟩ -
      exact .inr ⟨rfl, rfl⟩
    · rw [begins, holder]
      refine ⟨false, _, [.new 0xFFFFFFFF], _, Fallible.value?_eq_some.mp second, rfl,
        ⟨by decide, by decide, by decide, by decide⟩, ?_⟩
      rintro last - ⟨⟩
  exact (fetch_pages CapabilityList.handles 0 8).1 _ _ pagingTpm holds (.inl ⟨rfl, rfl⟩)

end TpmDevice
end Tpm2
