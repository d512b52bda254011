import Tpm2.Algorithm.Acyclic
import Tpm2.Vtpm.Run

/-! When looking for ancestors ends: the parents must not form a cycle. -/

namespace Tpm2

open ByteCodec

/-- A live key has the public area `pub` and the parent `parent`, which is not the null area of a
primary key. -/
def Registry.ParentOf (registry : Registry) (pub parent : TpmtPublic) : Prop :=
  ∃ v key, registry.key v = some key ∧ key.public = pub ∧ key.parent = parent ∧
    parent.objectType ≠ .null

/-- The same of the record files of a directory. -/
def RecordParentOf (dir : Directory) (pub parent : TpmtPublic) : Prop :=
  ∃ path v key, RecordAt dir path v key ∧ key.public = pub ∧ key.parent = parent ∧
    parent.objectType ≠ .null

namespace Registry

variable {registry : Registry} {S : Set UInt32} {v : UInt32} {key : VtpmKey} {name : Tpm2bName}
  {pub parent : TpmtPublic}

theorem ParentOf.of_drop (parentOf : (registry.drop S).ParentOf pub parent) :
    registry.ParentOf pub parent := by
  obtain ⟨v, key, live, rest⟩ := parentOf
  exact ⟨v, key, (key_drop_eq_some.mp live).2, rest⟩

/-- Storing a key adds the edge to its parent, which takes the place of the old one. -/
theorem ParentOf.of_store (parentOf : (registry.store v key name).ParentOf pub parent) :
    (registry.drop {v}).ParentOf pub parent ∨
      key.parent.objectType ≠ .null ∧ pub = key.public ∧ parent = key.parent := by
  obtain ⟨w, key', live, samePublic, sameParent, type⟩ := parentOf
  rcases key_store_eq_some.mp live with ⟨rfl, rfl⟩ | ⟨other, live⟩
  · exact .inr ⟨sameParent ▸ type, samePublic.symm, sameParent.symm⟩
  · exact .inl ⟨w, key', key_drop_eq_some.mpr ⟨other, live⟩, samePublic, sameParent, type⟩

/-- A key may be stored when its parent does not descend from it. -/
theorem acyclic_store (acyclic : Acyclic registry.ParentOf)
    (apart : key.parent.objectType ≠ .null →
      ¬ Relation.ReflTransGen (registry.drop {v}).ParentOf key.parent key.public) :
    Acyclic (registry.store v key name).ParentOf := by
  have rest : Acyclic (registry.drop {v}).ParentOf := acyclic.mono fun _ _ => ParentOf.of_drop
  by_cases primary : key.parent.objectType = .null
  · refine rest.mono fun pub parent parentOf => parentOf.of_store.resolve_right ?_
    exact fun edge => edge.1 primary
  · exact (rest.addEdge (apart primary)).mono fun pub parent parentOf =>
      parentOf.of_store.imp_right And.right

end Registry

namespace VtpmCache

variable {crypto : Libcrypto} {supplied : HashMap Tpm2bName TpmHandle} {dir : Directory}
  {cache : VtpmCache}

/-- The operation stores a key whose parent descends from it, once the key that it replaces is
gone. -/
def ClosesCycle (crypto : Libcrypto) (cache : VtpmCache) : Op → Prop
  | .saveTransient _ pub parent _ => (∃ v, cache.vacantHandle transientCount = some v) ∧
      (∃ name, tpmMakeName crypto pub = .ok name) ∧ parent.objectType ≠ .null ∧
      Relation.ReflTransGen cache.registry.ParentOf parent pub
  | .savePersistent handle pub parent _ => IsPersistent handle.value ∧
      (∃ name, tpmMakeName crypto pub = .ok name) ∧ parent.objectType ≠ .null ∧
      Relation.ReflTransGen (cache.registry.drop {handle.value}).ParentOf parent pub
  | _ => False

theorem acyclic_perform {op : Op} (safe : ¬ ClosesCycle crypto cache op)
    (acyclic : Acyclic cache.registry.ParentOf) :
    Acyclic (cache.perform crypto op).registry.ParentOf := by
  cases perform_effect crypto cache op with
  | same registry => exact registry ▸ acyclic
  | saveTransient vacant named registry =>
      rw [registry]
      refine Registry.acyclic_store acyclic fun type reaches =>
        safe ⟨⟨_, vacant⟩, ⟨_, named⟩, type, ?_⟩
      exact Relation.ReflTransGen.mono (fun _ _ => Registry.ParentOf.of_drop) _ _ reaches
  | savePersistent persistent named registry =>
      rw [registry]
      exact Registry.acyclic_store acyclic fun type reaches =>
        safe ⟨persistent, ⟨_, named⟩, type, reaches⟩
  | remove drops =>
      rw [drops.registry]
      exact acyclic.mono fun _ _ => Registry.ParentOf.of_drop

theorem Run.acyclic (records : Acyclic (RecordParentOf dir))
    (run : Run crypto supplied dir (fun cache op => ¬ ClosesCycle crypto cache op) cache) :
    Acyclic cache.registry.ParentOf := by
  induction run with
  | start ok =>
      obtain ⟨_, opened⟩ := new_spec ok
      refine records.mono ?_
      rintro pub parent ⟨v, key, live, rest⟩
      rw [opened.registry] at live
      obtain ⟨path, stored⟩ := recordAt_of_storeAll opened.valid
        (by simp [Registry.initial]) v key live
      exact ⟨path, v, key, stored, rest⟩
  | step op _ safe ih => exact acyclic_perform safe ih
  | reorder _ same ih => exact same.registry ▸ ih

/-- The loop of `fetchAncestors` has seen the handles `seen`, from whose public areas the parents
lead to that of `current`; it needs one round for each live handle that it has not seen, and one
more. -/
theorem fetchLoop_ends (acyclic : Acyclic cache.registry.ParentOf) (fuel : Nat)
    (current : TpmHandle)
    (chain : List TpmHandle) (seen : List UInt32) (nodup : seen.Nodup)
    (live : ∀ v ∈ seen, v ∈ cache.contexts.keys)
    (behind : ∀ v ∈ seen, ∀ key key', cache.contexts.lookup v = some key →
      cache.contexts.lookup current.value = some key' →
        Relation.TransGen cache.registry.ParentOf key.public key'.public)
    (enough : cache.contexts.keys.length < fuel + seen.length) :
    ∃ result, fetchLoop crypto cache fuel current chain = some result := by
  induction fuel generalizing current chain seen with
  | zero =>
      have le := (List.subperm_of_subset nodup live).length_le
      omega
  | succ fuel ih =>
      rw [fetchLoop]
      cases found : cache.findByHandle current with
      | none => exact ⟨_, rfl⟩
      | some key =>
          dsimp only
          split
          · exact ⟨_, rfl⟩
          next type =>
            cases up : cache.contexts.entries.find? fun entry => entry.2.public = key.parent with
            | none =>
                dsimp only
                cases tpmMakeName crypto key.parent with
                | error e => exact ⟨_, rfl⟩
                | ok parentName =>
                    dsimp only
                    cases cache.handles.lookup parentName <;> exact ⟨_, rfl⟩
            | some parent =>
                have found : cache.contexts.lookup current.value = some key := found
                have parentLive := HashMap.mem_entries.mp (List.mem_of_find?_eq_some up)
                have same : parent.2.public = key.parent := by simpa using List.find?_some up
                have here : current.value ∈ cache.contexts.keys :=
                  AList.mem_keys.mp (AList.lookup_isSome.mp (by rw [found]; rfl))
                have fresh : current.value ∉ seen := fun mem =>
                  acyclic _ (behind _ mem key key found found)
                have edge : cache.registry.ParentOf key.public parent.2.public :=
                  ⟨current.value, key, found, rfl, same.symm, same ▸ type⟩
                refine ih (.new parent.1) (current :: chain) (current.value :: seen)
                  (List.nodup_cons.mpr ⟨fresh, nodup⟩) (List.forall_mem_cons.mpr ⟨here, live⟩)
                  (List.forall_mem_cons.mpr ⟨?_, ?_⟩) ?_
                · intro own up' ownLive upLive
                  rw [found] at ownLive
                  rw [TpmInt.value_new, parentLive] at upLive
                  cases ownLive
                  cases upLive
                  exact .single edge
                · intro v mem old up' oldLive upLive
                  rw [TpmInt.value_new, parentLive] at upLive
                  cases upLive
                  exact (behind v mem old key oldLive found).tail edge
                · rw [List.length_cons]
                  omega

/-- While no record file and no operation closes a cycle of parents, the search for ancestors ends,
after one round for each live context at most. -/
theorem fetchAncestors_ends (records : Acyclic (RecordParentOf dir))
    (run : Run crypto supplied dir (fun cache op => ¬ ClosesCycle crypto cache op) cache)
    (handle : TpmHandle) : ∃ result,
      cache.fetchAncestors crypto (cache.contexts.keys.length + 1) handle = some result := by
  unfold fetchAncestors
  split
  · exact ⟨_, rfl⟩
  · exact fetchLoop_ends (run.acyclic records) _ handle [] [] .nil (by simp) (by simp) (by simp)

/-- Among primary keys, a child of another public area than its own closes no cycle. -/
theorem not_closesCycle_of_primary {context : TpmsContext} {pub parent : TpmtPublic}
    {policy : Option (List VtpmPolicyCommand)}
    (primary : ∀ e ∈ cache.contexts.entries, e.2.parent.objectType = .null)
    (different : parent ≠ pub) :
    ¬ ClosesCycle crypto cache (.saveTransient context pub parent policy) := by
  rintro ⟨-, -, -, reaches⟩
  rcases reaches.cases_head with same | ⟨next, ⟨v, key, live, -, rfl, type⟩, -⟩
  · exact different same
  · exact type (primary ⟨v, key⟩ (HashMap.mem_entries.mpr live))

theorem fetchAncestors_ends_child : ∃ result, fetchAncestors sampleCrypto
    ((emptyCache.perform sampleCrypto (.save 1 noParent)).perform sampleCrypto
      (.save 2 (samplePublic 1))) 3 (.new 0x80000001) = some result := by
  have records : Acyclic (RecordParentOf emptyDir) := by
    intro pub cycle
    obtain ⟨_, ⟨path, v, key, ⟨-, -, bytes, found, -⟩, -⟩, -⟩ :=
      Relation.TransGen.head'_iff.mp cycle
    simp [emptyDir] at found
  have primary : Run sampleCrypto ∅ emptyDir (fun cache op => ¬ ClosesCycle sampleCrypto cache op)
      (emptyCache.perform sampleCrypto (.save 1 noParent)) :=
    .step (.save 1 noParent) (emptyCache_run _ _) fun closes => closes.2.2.1 rfl
  have child : ¬ ClosesCycle sampleCrypto (emptyCache.perform sampleCrypto (.save 1 noParent))
      (.save 2 (samplePublic 1)) :=
    not_closesCycle_of_primary (by decide +kernel) (by decide +kernel)
  have ends := fetchAncestors_ends records (.step (.save 2 (samplePublic 1)) primary child)
    (.new 0x80000001)
  have two : ((emptyCache.perform sampleCrypto (.save 1 noParent)).perform sampleCrypto
      (.save 2 (samplePublic 1))).contexts.keys.length = 2 := by
    decide +kernel
  rwa [two] at ends

/-- A key that is its own parent keeps the search going. -/
theorem fetchAncestors_fails : ¬ ∀ crypto supplied dir cache handle,
    Run crypto supplied dir AnyOp cache →
      ∃ fuel result, fetchAncestors crypto cache fuel handle = some result := by
  intro claim
  let cache := emptyCache.perform sampleCrypto (.save 1 (samplePublic 1))
  let key : VtpmKey :=
    ⟨.new version, .new 0x80000000, samplePublic 1, samplePublic 1, sampleContext, []⟩
  have entries : cache.contexts.entries = [⟨0x80000000, key⟩] := by decide +kernel
  have loops : ∀ fuel chain, fetchLoop sampleCrypto cache fuel (.new 0x80000000) chain = none := by
    intro fuel
    induction fuel with
    | zero => exact fun _ => rfl
    | succ fuel ih =>
        intro chain
        have found : cache.findByHandle (.new 0x80000000) = some key := by decide +kernel
        rw [fetchLoop, found]
        dsimp only
        rw [if_neg (by decide), entries]
        exact ih _
  have run : Run sampleCrypto ∅ emptyDir AnyOp cache :=
    .step (.save 1 (samplePublic 1)) (emptyCache_run _ _) trivial
  obtain ⟨fuel, result, ended⟩ := claim _ _ _ cache (.new 0x80000000) run
  rw [fetchAncestors, if_neg (by decide), loops] at ended
  cases ended

end VtpmCache
end Tpm2
