import Tpm2.PolicyLanguage.Basic

/-! When the check of the PCR banks depends on the order in which the hash map lists them. -/

namespace Tpm2

open ByteCodec

/-- The PCR banks of a context. -/
abbrev PcrBanks := HashMap TpmAlgId (HashMap UInt32 Tpm2bDigest)

/-- A running count other than the sentinel 0 is compared with every later bank. -/
theorem countPcrs_eq_ok_of_pos {banks : List (HashMap UInt32 Tpm2bDigest)} {count result : Nat}
    (pos : 0 < count) :
    countPcrs banks count = .ok result ↔
      result = count ∧ ∀ bank ∈ banks, bank.entries.length = count := by
  induction banks with
  | nil => simp [countPcrs, eq_comm]
  | cons bank banks ih =>
      have counted : count ≠ 0 := by omega
      simp only [countPcrs, if_neg counted, List.forall_mem_cons]
      split
      next different =>
        simp only [reduceCtorEq, false_iff, not_and]
        intro _ same
        exact absurd same.symm different
      next same =>
        rw [ih, ← not_not.mp same]
        simp

/-- From the sentinel, the empty banks in front are passed over. -/
theorem countPcrs_zero_eq_ok {banks : List (HashMap UInt32 Tpm2bDigest)} {result : Nat} :
    countPcrs banks 0 = .ok result ↔
      ∃ front back, banks = front ++ back ∧ (∀ bank ∈ front, bank.entries.length = 0) ∧
        (∀ bank ∈ back, bank.entries.length = result) ∧ (back = [] → result = 0) := by
  induction banks with
  | nil =>
      constructor
      · intro ok
        exact ⟨[], [], rfl, by simp, by simp, fun _ => (Except.ok.inj ok).symm⟩
      · rintro ⟨front, back, split, -, -, last⟩
        obtain ⟨-, rfl⟩ := List.append_eq_nil_iff.mp split.symm
        rw [last rfl]
        rfl
  | cons bank banks ih =>
      simp only [countPcrs, if_true, ne_eq, not_true, if_false]
      rcases Nat.eq_zero_or_pos bank.entries.length with empty | pos
      · rw [empty, ih]
        constructor
        · rintro ⟨front, back, rfl, empties, counted, last⟩
          exact ⟨bank :: front, back, rfl, List.forall_mem_cons.mpr ⟨empty, empties⟩, counted, last⟩
        · rintro ⟨front, back, split, empties, counted, last⟩
          cases front with
          | nil =>
              obtain rfl : bank :: banks = back := split
              have zero : result = 0 := by rw [← counted bank (by simp), empty]
              exact ⟨[], banks, rfl, by simp, fun b mem => counted b (by simp [mem]), fun _ => zero⟩
          | cons head front =>
              obtain ⟨rfl, rfl⟩ := List.cons.inj split
              exact ⟨front, back, rfl, fun b mem => empties b (by simp [mem]), counted, last⟩
      · rw [countPcrs_eq_ok_of_pos pos]
        constructor
        · rintro ⟨rfl, counted⟩
          exact ⟨[], bank :: banks, rfl, by simp, by simpa using counted, by simp⟩
        · rintro ⟨front, back, split, empties, counted, last⟩
          cases front with
          | nil =>
              obtain rfl : bank :: banks = back := split
              have first := counted bank (by simp)
              exact ⟨first.symm, fun b mem => by rw [counted b (by simp [mem]), first]⟩
          | cons head front =>
              obtain ⟨rfl, rfl⟩ := List.cons.inj split
              have zero := empties bank (by simp)
              omega

/-- A refused collection is refused with `PcrCountMismatch`. -/
theorem countPcrs_eq_error {banks : List (HashMap UInt32 Tpm2bDigest)} {count : Nat}
    {e : TpmPolicyError} (error : countPcrs banks count = .error e) : e = .pcrCountMismatch := by
  induction banks generalizing count with
  | nil => cases error
  | cons bank banks ih =>
      simp only [countPcrs] at error
      generalize (if count = 0 then bank.entries.length else count) = next at error
      split at error
      · exact (Except.error.inj error).symm
      · exact ih error

namespace PcrBanks

/-- All banks have the same number of PCRs. -/
def SameCount (pcrs : PcrBanks) : Prop :=
  ∃ count, ∀ bank ∈ pcrs.values, bank.entries.length = count

/-- The same banks in another iteration order. -/
def Reordered (pcrs order : PcrBanks) : Prop := order.entries.Perm pcrs.entries

/-- The check of `TpmPolicyContext::new` means what it says in every iteration order: it accepts
if and only if the banks have the same number of PCRs, the context then holds that number, and any
two orders give the same count or the same error. -/
def OrderIndependent (pcrs : PcrBanks) : Prop :=
  ∀ names order, Reordered pcrs order →
    ((∃ context, TpmPolicyContext.new names order = .ok context) ↔ SameCount pcrs) ∧
    (∀ context, TpmPolicyContext.new names order = .ok context →
      ∀ bank ∈ pcrs.values, bank.entries.length = context.pcrCount) ∧
    ∀ order', Reordered pcrs order' →
      (TpmPolicyContext.new names order).map TpmPolicyContext.pcrCount =
        (TpmPolicyContext.new names order').map TpmPolicyContext.pcrCount

/-- Some bank is empty, some is not, and the non-empty ones have one size. -/
def EmptyBesideFull (pcrs : PcrBanks) : Prop :=
  ∃ count, 0 < count ∧ (∃ bank ∈ pcrs.values, bank.entries.length = 0) ∧
    (∃ bank ∈ pcrs.values, bank.entries.length = count) ∧
    ∀ bank ∈ pcrs.values, bank.entries.length = 0 ∨ bank.entries.length = count

variable {pcrs order : PcrBanks} {names : HashMap TpmHandle Tpm2bName}

theorem new_eq_ok {context : TpmPolicyContext} :
    TpmPolicyContext.new names pcrs = .ok context ↔
      ∃ count, countPcrs pcrs.values 0 = .ok count ∧ context = ⟨names, pcrs, count⟩ := by
  rw [TpmPolicyContext.new, bind_eq_ok]
  constructor
  · rintro ⟨count, counted, ok⟩
    exact ⟨count, counted, (Except.ok.inj ok).symm⟩
  · rintro ⟨count, counted, rfl⟩
    exact ⟨count, counted, rfl⟩

theorem map_new : (TpmPolicyContext.new names pcrs).map TpmPolicyContext.pcrCount =
    countPcrs pcrs.values 0 := by
  rw [TpmPolicyContext.new]
  cases countPcrs pcrs.values 0 <;> rfl

theorem Reordered.values (perm : Reordered pcrs order) :
    order.values.Perm pcrs.values := by
  show (order.entries.map Sigma.snd).Perm (pcrs.entries.map Sigma.snd)
  exact List.Perm.map _ perm

theorem Reordered.mem_values (perm : Reordered pcrs order) {bank : HashMap UInt32 Tpm2bDigest} :
    bank ∈ order.values ↔ bank ∈ pcrs.values :=
  perm.values.mem_iff

/-- Banks of one size are accepted in the order listed. -/
theorem countPcrs_of_sameCount (same : SameCount pcrs) :
    ∃ count, countPcrs pcrs.values 0 = .ok count := by
  obtain ⟨count, counted⟩ := same
  cases banks : pcrs.values with
  | nil => exact ⟨0, rfl⟩
  | cons bank rest =>
      refine ⟨count, countPcrs_zero_eq_ok.mpr ⟨[], bank :: rest, rfl, by simp, ?_, by simp⟩⟩
      rwa [banks] at counted

/-- Away from the sentinel's case, the banks that are accepted have the size that is counted. -/
theorem counted_of_countPcrs (clear : ¬ EmptyBesideFull pcrs) {count : Nat}
    (ok : countPcrs pcrs.values 0 = .ok count) :
    ∀ bank ∈ pcrs.values, bank.entries.length = count := by
  obtain ⟨front, back, split, empties, counted, last⟩ := countPcrs_zero_eq_ok.mp ok
  intro bank mem
  have both : ∀ b ∈ pcrs.values, b.entries.length = 0 ∨ b.entries.length = count := by
    intro b mem
    rw [split, List.mem_append] at mem
    exact mem.imp (empties b) (counted b)
  rcases both bank mem with empty | full
  · rcases Nat.eq_zero_or_pos count with zero | pos
    · rw [empty, zero]
    · cases back with
      | nil => exact absurd (last rfl) (by omega)
      | cons other back =>
          have full := counted other (by simp)
          exact absurd ⟨count, pos, ⟨bank, mem, empty⟩, ⟨other, by simp [split], full⟩, both⟩ clear
  · exact full

/-- The order that lists the empty banks first. -/
def emptyFirst (pcrs : PcrBanks) : PcrBanks where
  entries := pcrs.entries.filter (fun entry => entry.2.entries.length = 0) ++
    pcrs.entries.filter (fun entry => !decide (entry.2.entries.length = 0))
  nodupKeys := (List.perm_nodupKeys (List.filter_append_perm _ _)).mpr pcrs.nodupKeys

theorem reordered_emptyFirst : Reordered pcrs (emptyFirst pcrs) := by
  show List.Perm _ pcrs.entries
  exact List.filter_append_perm
    (fun entry : Sigma fun _ : TpmAlgId => HashMap UInt32 Tpm2bDigest =>
      decide (entry.2.entries.length = 0)) pcrs.entries

/-- With the empty banks first, the sentinel lets them pass. -/
theorem EmptyBesideFull.countPcrs_emptyFirst (mixed : EmptyBesideFull pcrs) :
    ∃ count, countPcrs (emptyFirst pcrs).values 0 = .ok count := by
  obtain ⟨count, pos, -, ⟨full, mem, counted⟩, both⟩ := mixed
  refine ⟨count, countPcrs_zero_eq_ok.mpr ⟨_, _, List.map_append, ?_, ?_, ?_⟩⟩
  · intro bank mem
    obtain ⟨entry, listed, rfl⟩ := List.mem_map.mp mem
    exact of_decide_eq_true (List.mem_filter.mp listed).2
  · intro bank mem
    obtain ⟨entry, listed, rfl⟩ := List.mem_map.mp mem
    obtain ⟨listed, nonempty⟩ := List.mem_filter.mp listed
    have sized := both entry.2 (List.mem_map_of_mem (f := Sigma.snd) listed)
    apply sized.resolve_left
    intro empty
    rw [decide_eq_true empty] at nonempty
    cases nonempty
  · intro none
    obtain ⟨entry, listed, rfl⟩ := List.mem_map.mp mem
    have kept : entry ∈ pcrs.entries.filter (fun entry =>
      !decide (entry.2.entries.length = 0)) := by
      refine List.mem_filter.mpr ⟨listed, ?_⟩
      rw [counted, decide_eq_false (by omega)]
      rfl
    rw [List.map_eq_nil_iff.mp none] at kept
    cases kept

theorem EmptyBesideFull.not_sameCount (mixed : EmptyBesideFull pcrs) : ¬ SameCount pcrs := by
  rintro ⟨same, counted⟩
  obtain ⟨count, pos, ⟨empty, memEmpty, zero⟩, ⟨full, memFull, sized⟩, -⟩ := mixed
  have := counted empty memEmpty
  have := counted full memFull
  omega

theorem Reordered.emptyBesideFull (perm : Reordered pcrs order) :
    EmptyBesideFull order ↔ EmptyBesideFull pcrs := by
  simp only [EmptyBesideFull, perm.mem_values]

/-- Away from the sentinel's case, what the check accepts does not mention the order. -/
theorem countPcrs_eq_ok (clear : ¬ EmptyBesideFull pcrs) {count : Nat} :
    countPcrs pcrs.values 0 = .ok count ↔
      (∀ bank ∈ pcrs.values, bank.entries.length = count) ∧ (pcrs.values = [] → count = 0) := by
  constructor
  · intro ok
    refine ⟨counted_of_countPcrs clear ok, fun none => ?_⟩
    rw [none] at ok
    exact (Except.ok.inj ok).symm
  · rintro ⟨counted, last⟩
    exact countPcrs_zero_eq_ok.mpr ⟨[], pcrs.values, rfl, by simp, counted, last⟩

theorem countPcrs_reordered (clear : ¬ EmptyBesideFull pcrs) (perm : Reordered pcrs order) :
    countPcrs order.values 0 = countPcrs pcrs.values 0 := by
  have same : ∀ count, countPcrs order.values 0 = .ok count ↔ countPcrs pcrs.values 0 =
    .ok count := by
    intro count
    have none : order.values = [] ↔ pcrs.values = [] := by
      rw [← List.length_eq_zero_iff, ← List.length_eq_zero_iff, perm.values.length_eq]
    rw [countPcrs_eq_ok clear, countPcrs_eq_ok (perm.emptyBesideFull.not.mpr clear), none]
    simp only [perm.mem_values]
  cases first : countPcrs order.values 0 with
  | ok count => exact ((same count).mp first).symm
  | error e =>
      cases second : countPcrs pcrs.values 0 with
      | ok count => rw [(same count).mpr second] at first; cases first
      | error e' => rw [countPcrs_eq_error first, countPcrs_eq_error second]

/-- The check of the banks is right in every iteration order exactly when it is not the case that
some bank is empty, some is not, and the non-empty ones have one size. -/
theorem orderIndependent_iff (pcrs : PcrBanks) :
    OrderIndependent pcrs ↔ ¬ EmptyBesideFull pcrs := by
  constructor
  · intro independent mixed
    obtain ⟨count, ok⟩ := mixed.countPcrs_emptyFirst
    obtain ⟨accepts, -⟩ := independent ∅ _ reordered_emptyFirst
    exact mixed.not_sameCount (accepts.mp ⟨_, new_eq_ok.mpr ⟨count, ok, rfl⟩⟩)
  · intro clear names order perm
    refine ⟨⟨?_, ?_⟩, ?_, ?_⟩
    · rintro ⟨context, ok⟩
      obtain ⟨count, ok, -⟩ := new_eq_ok.mp ok
      rw [countPcrs_reordered clear perm] at ok
      exact ⟨count, counted_of_countPcrs clear ok⟩
    · intro same
      obtain ⟨count, ok⟩ := countPcrs_of_sameCount same
      rw [← countPcrs_reordered clear perm] at ok
      exact ⟨_, new_eq_ok.mpr ⟨count, ok, rfl⟩⟩
    · intro context ok
      obtain ⟨count, counted, rfl⟩ := new_eq_ok.mp ok
      rw [countPcrs_reordered clear perm] at counted
      exact counted_of_countPcrs clear counted
    · intro order' perm'
      rw [map_new, map_new, countPcrs_reordered clear perm, countPcrs_reordered clear perm']

/-- A bank with the PCR 0 alone. -/
def sampleBank : HashMap UInt32 Tpm2bDigest :=
  AList.insert 0 ⟨List.replicate 32 0, by decide, by decide⟩ ∅

/-- A bank without PCRs beside one with a PCR. -/
def sampleBanks : PcrBanks := AList.insert .sha1 ∅ (AList.insert .sha256 sampleBank ∅)

/-- The same banks, listed the other way round. -/
def sampleBanksReversed : PcrBanks :=
  AList.insert .sha256 sampleBank (AList.insert .sha1 ∅ ∅)

/-- The first order is accepted and the second refused, although the banks differ in size. -/
theorem not_orderIndependent_sample : ¬ OrderIndependent sampleBanks ∧
    Reordered sampleBanks sampleBanksReversed ∧
    countPcrs sampleBanks.values 0 = .ok 1 ∧
    countPcrs sampleBanksReversed.values 0 = .error .pcrCountMismatch := by
  refine ⟨fun independent => ?_, List.Perm.swap .., rfl, rfl⟩
  obtain ⟨-, -, agree⟩ := independent ∅ sampleBanks (List.Perm.refl _)
  have same := agree sampleBanksReversed (List.Perm.swap ..)
  cases same

end PcrBanks

end Tpm2
