import Tpm2.Vtpm.Cascade
import Tpm2.Vtpm.Index

/-! When looking up names is sound and complete: what the operations and the record files must leave
alone for the index to know every live name. -/

namespace Tpm2

open ByteCodec

namespace VtpmCache

variable {crypto : Libcrypto} {supplied : HashMap Tpm2bName TpmHandle} {dir : Directory}
  {cache : VtpmCache} {records : List Record} {n : Tpm2bName} {v : UInt32}

/-- The operation does not take an index entry away from a name that some context keeps: a
persistent handle that changes its name is the only one with the old name, and when a removal takes
a name away from one context it also reaches all others with that name, and nothing stops it. -/
def SparesNames (crypto : Libcrypto) (cache : VtpmCache) : Op → Prop
  | .savePersistent handle pub _ _ => IsPersistent handle.value →
      ∀ m n, tpmMakeName crypto pub = .ok m → n ≠ m → cache.handles.lookup n = some handle →
        NamedAt crypto cache handle.value n ∧
          ∀ w, w ≠ handle.value → ¬ NamedAt crypto cache w n
  | .remove handle => ∀ n v w, cache.handles.lookup n = some v → NamedAt crypto cache v.value n →
      NamedAt crypto cache w n → w ≠ v.value →
      Relation.ReflTransGen cache.ChildOf handle.value v.value →
        Relation.ReflTransGen cache.ChildOf handle.value w ∧ cache.cacheDir.Healthy ∧
          ∀ u child, u ≠ handle.value → cache.contexts.lookup u = some child →
            Encodes child.parent
  | _ => True

/-- What the record files of a directory must agree on: a record of a supplied handle has the name
that the handle was supplied with, and when two records of one handle differ in their names, no
record of another handle has one of these names. -/
structure RecordsAgree (crypto : Libcrypto) (supplied : HashMap Tpm2bName TpmHandle)
    (dir : Directory) : Prop where
  supplied : ∀ n p path key m, supplied.lookup n = some p → RecordAt dir path p.value key →
    tpmMakeName crypto key.public = .ok m → m = n
  shared : ∀ path path' path'' v w key key' key'' m n, RecordAt dir path v key →
    RecordAt dir path' v key' → RecordAt dir path'' w key'' → tpmMakeName crypto key.public =
      .ok m →
    tpmMakeName crypto key'.public = .ok n → tpmMakeName crypto key''.public = .ok m → w ≠ v → m = n

/-- The name that a handle publishes comes from one of its records. -/
def FromRecords (crypto : Libcrypto) (dir : Directory) (registry : Registry) : Prop :=
  ∀ v m, registry.index.name v = some m → ∃ path key, RecordAt dir path v key ∧
    tpmMakeName crypto key.public = .ok m

theorem storeAll_complete {registry : Registry} (agree : RecordsAgree crypto supplied dir)
    (valid : ∀ record ∈ records, record.Valid crypto dir)
    (complete : registry.index.Complete) (fromRecords : FromRecords crypto dir registry) :
    (registry.storeAll records).index.Complete ∧
      FromRecords crypto dir (registry.storeAll records) := by
  induction records generalizing registry with
  | nil => exact ⟨complete, fromRecords⟩
  | cons record records ih =>
      obtain ⟨own, valid⟩ := List.forall_mem_cons.mp valid
      refine @ih (registry.store record.handle record.key record.name) valid ?_ ?_
      · refine complete.publish fun m other resolves named w different named' => ?_
        obtain ⟨path, key, stored, computed⟩ := fromRecords _ m named
        obtain ⟨path', key', stored', computed'⟩ := fromRecords w m named'
        exact other (agree.shared _ _ _ _ _ _ _ _ _ _ stored own.stored stored' computed own.named
          computed' different)
      · intro w m named
        rcases NameIndex.name_publish_eq_some.mp named with ⟨rfl, rfl⟩ | ⟨-, named⟩
        · exact ⟨_, _, own.stored, own.named⟩
        · exact fromRecords w m named

/-- The index that `new` builds from such files is complete and sound. -/
theorem Opened.index (agree : RecordsAgree crypto supplied dir)
    (opened : Opened crypto supplied dir records cache) :
    cache.registry.index.Complete ∧ cache.registry.index.Sound := by
  have consistent := Registry.Consistent.initial.steps opened.steps
  have unnamed : FromRecords crypto dir (.initial supplied) := by
    simp [FromRecords, Registry.initial]
  obtain ⟨complete, fromRecords⟩ := storeAll_complete agree opened.valid
    (by simp [NameIndex.Complete, Registry.initial]) unnamed
  rw [← opened.registry] at complete fromRecords
  refine ⟨complete, fun n v m resolves named => ?_⟩
  rcases consistent.backed n v resolves with outside | own
  · obtain ⟨p, entry, rfl⟩ := Option.map_eq_some_iff.mp outside
    obtain ⟨path, key, stored, computed⟩ := fromRecords _ m named
    exact agree.supplied n p path key m entry stored computed
  · rw [own] at named
    exact (Option.some.inj named).symm

/-- A removal that reaches a live context starts at one. -/
theorem root_live_of_reaches {w : UInt32} {key : VtpmKey}
    (reaches : Relation.ReflTransGen cache.ChildOf v w)
    (live : cache.contexts.lookup w = some key) : ∃ key, cache.contexts.lookup v = some key := by
  rcases Relation.ReflTransGen.cases_head reaches with rfl | ⟨u, ⟨parent, -, -, live, -⟩, -⟩
  · exact ⟨key, live⟩
  · exact ⟨parent, live⟩

/-- Without file errors and with parents that can be encoded, a removal takes away everything that
descends from its handle. -/
theorem Run.removed {Meets : VtpmCache → Op → Prop} (run : Run crypto supplied dir Meets cache)
    {handle : TpmHandle} {w : UInt32} {key : VtpmKey} (healthy : cache.cacheDir.Healthy)
    (parents : ∀ u child, u ≠ handle.value → cache.contexts.lookup u = some child →
      Encodes child.parent)
    (reaches : Relation.ReflTransGen cache.ChildOf handle.value w)
    (live : cache.contexts.lookup w = some key) :
    (cache.perform crypto (.remove handle)).contexts.lookup w = none := by
  obtain ⟨root, rootLive⟩ := root_live_of_reaches reaches live
  obtain ⟨handles, cache', ok⟩ := remove_of_healthy healthy (fun _ _ => run.encodes) parents
  obtain ⟨gone, -, drops, all, -⟩ := remove_ok rootLive ok
  rw [perform, ok, Fallible.after_ok, drops.contexts, if_pos ((all w).mpr reaches)]

theorem Run.persistent {Meets : VtpmCache → Op → Prop} (run : Run crypto supplied dir Meets cache)
    {p : TpmHandle} (entry : supplied.lookup n = some p) : IsPersistent p.value := by
  induction run with
  | start ok =>
      obtain ⟨records, opened⟩ := new_spec ok
      exact opened.persistent n p entry
  | step _ _ _ ih => exact ih
  | reorder _ _ ih => exact ih

theorem SparesNames.step {Meets : VtpmCache → Op → Prop} (run : Run crypto supplied dir Meets cache)
    {op : Op} (spares : SparesNames crypto cache op) (complete : cache.registry.index.Complete)
    (sound : cache.registry.index.Sound) :
    (cache.perform crypto op).registry.index.Complete ∧
      (cache.perform crypto op).registry.index.Sound := by
  have consistent := run.consistent
  cases perform_effect crypto cache op with
  | same registry => exact registry ▸ ⟨complete, sound⟩
  | @saveTransient context pub parent policy _ u m vacant computed registry =>
      obtain ⟨transient, free⟩ := vacantHandle_spec run.steps.2 (Nat.le_refl _) vacant
      have unnamed : ∀ k, cache.registry.index.name u ≠ some k := by
        intro k named
        obtain ⟨key, live, -⟩ := (namedAt_iff consistent).mpr named
        rw [free] at live
        cases live
      have unresolved : ∀ k, cache.registry.index.resolve k ≠ some u := by
        intro k resolves
        rcases consistent.backed k u resolves with outside | named
        · obtain ⟨p, entry, rfl⟩ := Option.map_eq_some_iff.mp outside
          have persistent := run.persistent entry
          rw [isTransient_iff] at transient
          rw [isPersistent_iff] at persistent
          omega
        · exact unnamed k named
      rw [registry]
      exact ⟨complete.publish fun k _ _ named => (unnamed k named).elim,
        sound.publish fun k _ resolves => (unresolved k resolves).elim⟩
  | @savePersistent handle pub parent policy _ m persistent computed registry =>
      rw [registry]
      refine ⟨complete.publish fun k other resolves _ w different named => ?_,
        sound.publish fun k other resolves => ?_⟩
      · exact (spares persistent m k computed other (lookup_handles.mp resolves)).2 w different
          ((namedAt_iff consistent).mpr named)
      · exact (namedAt_iff consistent).mp
          (spares persistent m k computed other (lookup_handles.mp resolves)).1
  | @remove handle _ gone drops reaches =>
      rw [drops.registry]
      refine ⟨complete.retire fun k u mem w other resolves named named' => ?_, sound.retire _⟩
      have resolves' : cache.handles.lookup k = some (.new u) := by
        rw [← lookup_handles, TpmInt.value_new]
        exact resolves
      have different : w ≠ u := fun same => other (same ▸ mem)
      obtain ⟨reached, healthy, parents⟩ := spares k (.new u) w resolves'
        (by rw [TpmInt.value_new]; exact (namedAt_iff consistent).mpr named)
        ((namedAt_iff consistent).mpr named') (by rwa [TpmInt.value_new])
        (by rw [TpmInt.value_new]; exact reaches u mem)
      obtain ⟨key, live, -⟩ := (namedAt_iff consistent).mpr named'
      have removed := run.removed healthy parents reached live
      have stays : w ∉ gone := other
      rw [drops.contexts, if_neg stays, live] at removed
      cases removed

theorem Run.index (agree : RecordsAgree crypto supplied dir)
    (run : Run crypto supplied dir (SparesNames crypto) cache) :
    cache.registry.index.Complete ∧ cache.registry.index.Sound := by
  induction run with
  | start ok =>
      obtain ⟨records, opened⟩ := new_spec ok
      exact opened.index agree
  | step op before spares ih => exact spares.step before ih.1 ih.2
  | reorder _ same ih => exact same.registry ▸ ih

/-- While the record files agree on their names and the operations spare those in use, a name is
found exactly when some live context has it, and what is found has this name. -/
theorem findByName_iff (agree : RecordsAgree crypto supplied dir)
    (run : Run crypto supplied dir (SparesNames crypto) cache) (n : Tpm2bName) :
    ((∃ key, cache.findByName n = some key) ↔ LiveName crypto cache n) ∧
      ∀ key, cache.findByName n = some key → tpmMakeName crypto key.public = .ok n := by
  have consistent := run.consistent
  obtain ⟨complete, sound⟩ := run.index agree
  have found : ∀ key, cache.findByName n = some key → ∃ handle, cache.handles.lookup n =
      some handle ∧ cache.contexts.lookup handle.value = some key := fun key found =>
    Option.bind_eq_some_iff.mp found
  have named : ∀ key, cache.findByName n = some key → tpmMakeName crypto key.public = .ok n := by
    intro key isFound
    obtain ⟨handle, resolves, live⟩ := found key isFound
    obtain ⟨m, published⟩ := Option.isSome_iff_exists.mp
      ((consistent.named handle.value).mpr (by rw [key_registry, live]; rfl))
    obtain rfl := sound n handle.value m (lookup_handles.mpr resolves) published
    exact consistent.name_eq handle.value key m live published
  refine ⟨⟨?_, ?_⟩, named⟩
  · rintro ⟨key, isFound⟩
    obtain ⟨handle, -, live⟩ := found key isFound
    exact ⟨handle.value, key, live, named key isFound⟩
  · rintro ⟨v, live⟩
    obtain ⟨w, resolves, published⟩ := complete v n ((namedAt_iff consistent).mp live)
    obtain ⟨key, keyLive, -⟩ := (namedAt_iff consistent).mpr published
    have entry : cache.handles.lookup n = some (.new w) := by
      rw [← lookup_handles, TpmInt.value_new, resolves]
    exact ⟨key, Option.bind_eq_some_iff.mpr ⟨.new w, entry, by rw [TpmInt.value_new, keyLive]⟩⟩

/-- Two contexts of the sample key 1. -/
def sampleTwins : VtpmCache :=
  (emptyCache.perform sampleCrypto (.save 1 noParent)).perform sampleCrypto (.save 1 noParent)

-- The younger context is found by the name of both.
example : ([.save 1 noParent, .save 1 noParent].foldl (perform sampleCrypto)
    emptyCache).handles.lookup sampleName = some (.new 0x80000001) := by
  decide +kernel

/-- The older context is removed, and the younger is still found. -/
theorem findByName_iff_twins : ∃ key, (sampleTwins.perform sampleCrypto
    (.remove (.new 0x80000000))).findByName sampleName = some key := by
  have agree : RecordsAgree sampleCrypto ∅ emptyDir := by
    constructor
    · rintro n p path key m entry
      simp at entry
    · rintro path path' path'' v w key key' key'' m n ⟨-, -, bytes, found, -⟩
      simp [emptyDir] at found
  have childless : ∀ e ∈ sampleTwins.contexts.entries, ∀ e' ∈ sampleTwins.contexts.entries,
      parentKeyBytes e.2.public ≠ parentKeyBytes e'.2.parent := by
    decide +kernel
  have younger : ∀ e ∈ sampleTwins.handles.entries, e.2.value = 0x80000001 := by decide +kernel
  have spares : SparesNames sampleCrypto sampleTwins (.remove (.new 0x80000000)) := by
    intro n v w resolves named named' other reaches
    have registered : v.value = 0x80000001 := younger ⟨n, v⟩ (HashMap.mem_entries.mpr resolves)
    rcases reaches.cases_head with same | ⟨u, ⟨parent, child, bytes, live, live', own, up⟩, -⟩
    · rw [registered] at same
      exact absurd same (by decide)
    · exact absurd (own.trans up.symm) (childless ⟨_, parent⟩ (HashMap.mem_entries.mpr live)
        ⟨u, child⟩ (HashMap.mem_entries.mpr live'))
  have run : Run sampleCrypto ∅ emptyDir (SparesNames sampleCrypto) _ :=
    .step (.remove (.new 0x80000000)) (.step (.save 1 noParent) (.step (.save 1 noParent)
      (emptyCache_run _ _) trivial) trivial) spares
  refine (findByName_iff agree run sampleName).1.mpr ⟨0x80000001, ?_⟩
  obtain ⟨key, live, own⟩ : ∃ key, (sampleTwins.perform sampleCrypto
      (.remove (.new 0x80000000))).contexts.lookup 0x80000001 = some key ∧
        key.public = samplePublic 1 :=
    Option.map_eq_some_iff.mp (by decide +kernel)
  exact ⟨key, live, own ▸ by decide +kernel⟩

/-- Of two contexts with one public area, the older one is not found once the younger is removed. -/
theorem findByName_fails : ¬ ∀ crypto supplied dir cache n, Run crypto supplied dir AnyOp cache →
    ((∃ key, cache.findByName n = some key) ↔ LiveName crypto cache n) := by
  intro claim
  let cache := ((emptyCache.perform sampleCrypto (.save 1 noParent)).perform sampleCrypto
    (.save 1 noParent)).perform sampleCrypto (.remove (.new 0x80000001))
  have run : Run sampleCrypto ∅ emptyDir AnyOp cache :=
    .step (.remove (.new 0x80000001)) (.step (.save 1 noParent)
      (.step (.save 1 noParent) (emptyCache_run _ _) trivial) trivial) trivial
  obtain ⟨key, live, own⟩ : ∃ key, cache.contexts.lookup 0x80000000 = some key ∧
      key.public = samplePublic 1 := Option.map_eq_some_iff.mp (by decide +kernel)
  obtain ⟨found, isFound⟩ := (claim _ _ _ cache sampleName run).mpr
    ⟨0x80000000, key, live, own ▸ by decide +kernel⟩
  have lost : cache.findByName sampleName = none := by decide +kernel
  rw [lost] at isFound
  cases isFound

end VtpmCache
end Tpm2
