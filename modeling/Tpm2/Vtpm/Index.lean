import Tpm2.Vtpm.Run

/-! Looking keys up by name: when the name index finds what is live, and when a supplied handle
keeps its entry. -/

namespace Tpm2

open ByteCodec

namespace VtpmCache

variable {crypto : Libcrypto} {supplied : HashMap Tpm2bName TpmHandle} {dir : Directory}
  {cache : VtpmCache} {records : List Record} {n : Tpm2bName} {p : TpmHandle}

/-- `v` is live, and its public area has the name `n`. -/
def NamedAt (crypto : Libcrypto) (cache : VtpmCache) (v : UInt32) (n : Tpm2bName) : Prop :=
  ∃ key, cache.contexts.lookup v = some key ∧ tpmMakeName crypto key.public = .ok n

/-- The public area of some live context has the name `n`. -/
def LiveName (crypto : Libcrypto) (cache : VtpmCache) (n : Tpm2bName) : Prop :=
  ∃ v, NamedAt crypto cache v n

theorem namedAt_iff (consistent : cache.registry.Consistent crypto supplied) {v : UInt32} :
    NamedAt crypto cache v n ↔ cache.registry.index.name v = some n :=
  consistent.name_iff.symm

theorem liveName_iff (consistent : cache.registry.Consistent crypto supplied) :
    LiveName crypto cache n ↔ ∃ v, cache.registry.index.name v = some n :=
  exists_congr fun _ => namedAt_iff consistent

/-- The operation does not ask to take away the last live context with the name `n`: neither by
storing another public area in its place, nor by removing a key from which all of them descend. -/
def KeepsName (crypto : Libcrypto) (n : Tpm2bName) (cache : VtpmCache) : Op → Prop
  | .savePersistent handle pub _ _ => IsPersistent handle.value →
      NamedAt crypto cache handle.value n → (∀ m, tpmMakeName crypto pub = .ok m → m = n) ∨
        ∃ w, w ≠ handle.value ∧ NamedAt crypto cache w n
  | .remove handle => LiveName crypto cache n →
      ∃ w, NamedAt crypto cache w n ∧ ¬ Relation.ReflTransGen cache.ChildOf handle.value w
  | _ => True

/-- Of two record files of one handle, both have the name `n` or none has. -/
def RecordsAgreeOn (crypto : Libcrypto) (dir : Directory) (n : Tpm2bName) : Prop :=
  ∀ path path' v key key' m, RecordAt dir path v key → RecordAt dir path' v key' →
    tpmMakeName crypto key.public = .ok n → tpmMakeName crypto key'.public = .ok m → m = n

/-- Such an operation keeps a context with the name `n` live. -/
theorem KeepsName.live {op : Op} (consistent : cache.registry.Consistent crypto supplied)
    (next : IsTransient cache.nextVirtualHandle) (keeps : KeepsName crypto n cache op)
    (live : LiveName crypto cache n) :
    ∃ v, (cache.perform crypto op).registry.index.name v = some n := by
  obtain ⟨v, named⟩ := live
  have published := (namedAt_iff consistent).mp named
  cases perform_effect crypto cache op with
  | same registry =>
      rw [registry]
      exact ⟨v, published⟩
  | @saveTransient context pub parent policy _ u m vacant computed registry after =>
      obtain ⟨-, free⟩ := vacantHandle_spec next (Nat.le_refl _) vacant
      have other : v ≠ u := by
        rintro rfl
        obtain ⟨key, found, -⟩ := named
        rw [free] at found
        cases found
      rw [registry]
      exact ⟨v, NameIndex.name_publish_eq_some.mpr (.inr ⟨other, published⟩)⟩
  | @savePersistent handle pub parent policy _ m persistent computed registry =>
      rw [registry]
      by_cases same : v = handle.value
      · subst same
        rcases keeps persistent named with agrees | ⟨w, other, named'⟩
        · exact ⟨_, NameIndex.name_publish_eq_some.mpr (.inl ⟨rfl, (agrees m computed).symm⟩)⟩
        · exact ⟨w, NameIndex.name_publish_eq_some.mpr
            (.inr ⟨other, (namedAt_iff consistent).mp named'⟩)⟩
      · exact ⟨v, NameIndex.name_publish_eq_some.mpr (.inr ⟨same, published⟩)⟩
  | @remove handle _ gone drops reaches =>
      obtain ⟨w, named', spared⟩ := keeps ⟨v, named⟩
      rw [drops.registry]
      exact ⟨w, NameIndex.name_retire_eq_some.mpr
        ⟨fun mem => spared (reaches w mem), (namedAt_iff consistent).mp named'⟩⟩

/-- Once a record with the name `n` is stored, some handle keeps that name. -/
theorem storeAll_named {registry : Registry} (agree : RecordsAgreeOn crypto dir n)
    (valid : ∀ record ∈ records, record.Valid crypto dir)
    (stored : (∃ record : Record, record.Valid crypto dir ∧ record.name = n ∧
        registry.index.name record.handle = some n) ∨ ∃ record ∈ records, record.name = n) :
    ∃ v, (registry.storeAll records).index.name v = some n := by
  induction records generalizing registry with
  | nil =>
      rcases stored with ⟨record, -, -, named⟩ | ⟨record, mem, -⟩
      · exact ⟨record.handle, named⟩
      · cases mem
  | cons first records ih =>
      obtain ⟨own, valid⟩ := List.forall_mem_cons.mp valid
      refine @ih (registry.store first.handle first.key first.name) valid ?_
      by_cases isNamed : first.name = n
      · exact .inl ⟨first, own, isNamed, isNamed ▸ NameIndex.name_publish_self⟩
      · rcases stored with ⟨record, recordValid, same, named⟩ | ⟨record, mem, same⟩
        · refine .inl ⟨record, recordValid, same, ?_⟩
          refine NameIndex.name_publish_eq_some.mpr (.inr ⟨fun handle => isNamed ?_, named⟩)
          exact agree _ _ _ _ _ _ recordValid.stored (handle ▸ own.stored)
            (same ▸ recordValid.named) own.named
        · rcases List.mem_cons.mp mem with rfl | mem
          · exact (isNamed same).elim
          · exact .inr ⟨record, mem, same⟩

/-- Records with other names leave the entry of `n` alone. -/
theorem storeAll_of_unnamed {registry : Registry} (free : ∀ v, registry.index.name v ≠ some n)
    (others : ∀ record ∈ records, record.name ≠ n) :
    (registry.storeAll records).index.resolve n = registry.index.resolve n := by
  induction records generalizing registry with
  | nil => rfl
  | cons record records ih =>
      obtain ⟨other, others⟩ := List.forall_mem_cons.mp others
      have free' : ∀ v, (registry.store record.handle record.key record.name).index.name v ≠
          some n := by
        intro v named
        rcases NameIndex.name_publish_eq_some.mp named with ⟨-, same⟩ | ⟨-, named⟩
        · exact other same.symm
        · exact free v named
      exact (ih free' others).trans
        (NameIndex.resolve_publish_of_unnamed (Ne.symm other) free)

/-- An operation that starts and ends without a live context named `n` leaves the entry of `n`
alone. -/
theorem perform_of_unnamed {op : Op} (free : ∀ v, cache.registry.index.name v ≠ some n)
    (free' : ∀ v, (cache.perform crypto op).registry.index.name v ≠ some n) :
    (cache.perform crypto op).registry.index.resolve n = cache.registry.index.resolve n := by
  cases perform_effect crypto cache op with
  | same registry => rw [registry]
  | saveTransient _ _ registry =>
      rw [registry] at free' ⊢
      refine NameIndex.resolve_publish_of_unnamed ?_ free
      rintro rfl
      exact free' _ NameIndex.name_publish_self
  | savePersistent _ _ registry =>
      rw [registry] at free' ⊢
      refine NameIndex.resolve_publish_of_unnamed ?_ free
      rintro rfl
      exact free' _ NameIndex.name_publish_self
  | remove drops =>
      rw [drops.registry]
      exact NameIndex.resolve_retire_of_unnamed free

/-- While the operations keep the name `n`, either a context with that name is live or `n` still
resolves as it was supplied. -/
theorem Run.supplied_or_live (entry : supplied.lookup n = some p)
    (agree : RecordsAgreeOn crypto dir n)
    (run : Run crypto supplied dir (KeepsName crypto n) cache) :
    LiveName crypto cache n ∨ cache.registry.index.resolve n = some p.value := by
  induction run with
  | @start cache dir' ok =>
      obtain ⟨records, opened⟩ := new_spec ok
      by_cases loaded : ∃ record ∈ records, record.name = n
      · rw [liveName_iff (Registry.Consistent.initial.steps opened.steps), opened.registry]
        exact .inl (storeAll_named agree opened.valid (.inr loaded))
      · have free : ∀ v, (Registry.initial supplied).index.name v ≠ some n := by
          simp [Registry.initial]
        rw [opened.registry, storeAll_of_unnamed free fun record mem same =>
          loaded ⟨record, mem, same⟩]
        exact .inr (by simp [Registry.initial, entry])
  | @step cache op before keeps ih =>
      have consistent := before.consistent
      have consistent' := (before.step op keeps).consistent
      by_cases live : LiveName crypto cache n
      · exact .inl ((liveName_iff consistent').mpr (keeps.live consistent before.steps.2 live))
      · by_cases live' : LiveName crypto (cache.perform crypto op) n
        · exact .inl live'
        · have resolves := ih.resolve_left live
          rw [liveName_iff consistent, not_exists] at live
          rw [liveName_iff consistent', not_exists] at live'
          rw [perform_of_unnamed live live']
          exact .inr resolves
  | reorder before same ih =>
      rw [liveName_iff (before.reorder same).consistent, same.registry]
      rw [liveName_iff before.consistent] at ih
      exact ih

/-- A context whose parent is not live is reached through the handle that the parent's name resolves
to. -/
theorem fetchAncestors_of_resolves {c : TpmHandle} {key : VtpmKey}
    (live : cache.contexts.lookup c.value = some key) (child : key.parent.objectType ≠ .null)
    (named : tpmMakeName crypto key.parent = .ok n) (gone : ¬ LiveName crypto cache n)
    (resolves : cache.handles.lookup n = some p)
    (loads : ¬ (IsPersistent c.value ∧ c ∈ cache.handles.values)) (fuel : Nat) :
    cache.fetchAncestors crypto (fuel + 1) c = some (.ok [p, c]) := by
  have orphan : cache.contexts.entries.find? (fun entry => entry.2.public = key.parent) = none := by
    rw [List.find?_eq_none]
    intro entry mem same
    have parentLive := HashMap.mem_entries.mp mem
    rw [decide_eq_true_eq] at same
    exact gone ⟨entry.1, entry.2, parentLive, same ▸ named⟩
  rw [fetchAncestors, if_neg loads, fetchLoop, findByHandle, live]
  dsimp only
  rw [if_neg child, orphan]
  dsimp only
  rw [named]
  dsimp only
  rw [resolves]

/-- While the operations keep the name `n`, a supplied entry of `n` is found whenever no live
context has that name, also as the root of a context that goes to its parent. -/
theorem supplied_resolves (entry : supplied.lookup n = some p)
    (agree : RecordsAgreeOn crypto dir n)
    (run : Run crypto supplied dir (KeepsName crypto n) cache) (gone : ¬ LiveName crypto cache n) :
    cache.handles.lookup n = some p ∧
      ∀ c key, cache.contexts.lookup c.value = some key → key.parent.objectType ≠ .null →
        tpmMakeName crypto key.parent = .ok n →
        ¬ (IsPersistent c.value ∧ c ∈ cache.handles.values) →
        ∀ fuel, cache.fetchAncestors crypto (fuel + 1) c = some (.ok [p, c]) := by
  have resolves : cache.handles.lookup n = some p :=
    lookup_handles.mp ((run.supplied_or_live entry agree).resolve_left gone)
  exact ⟨resolves, fun c key live child named loads fuel =>
    fetchAncestors_of_resolves live child named gone resolves loads fuel⟩

/-- The sample key 1 is persistent. -/
def sampleSupplied : HashMap Tpm2bName TpmHandle :=
  (∅ : HashMap Tpm2bName TpmHandle).insert sampleName (.new 0x81000001)

/-- The cache on an empty directory, with the persistent sample key 1. -/
def suppliedCache : VtpmCache := ⟨∅, sampleSupplied, ∅, ∅, emptyDir, transientStart⟩

theorem suppliedCache_run (crypto : Libcrypto) (Meets : VtpmCache → Op → Prop) :
    Run crypto sampleSupplied emptyDir Meets suppliedCache :=
  .start (show (new crypto sampleSupplied).run emptyDir = .ok suppliedCache emptyDir from rfl)

/-- No operation is on the handle `p`. -/
def NeverNames (p : TpmHandle) (_ : VtpmCache) : Op → Prop
  | .savePersistent handle _ _ _ => handle ≠ p
  | .remove handle => handle ≠ p
  | _ => True

theorem recordsAgreeOn_empty (crypto : Libcrypto) (n : Tpm2bName) :
    RecordsAgreeOn crypto emptyDir n := by
  rintro path path' v key key' m ⟨-, -, bytes, found, -⟩
  simp [emptyDir] at found

theorem supplied_resolves_child :
    (suppliedCache.perform sampleCrypto (.save 2 (samplePublic 1))).fetchAncestors sampleCrypto 1
      (.new 0x80000000) = some (.ok [.new 0x81000001, .new 0x80000000]) := by
  have run : Run sampleCrypto sampleSupplied emptyDir (KeepsName sampleCrypto sampleName) _ :=
    .step (.save 2 (samplePublic 1)) (suppliedCache_run _ _) trivial
  have gone : ¬ LiveName sampleCrypto
      (suppliedCache.perform sampleCrypto (.save 2 (samplePublic 1))) sampleName := by
    rw [liveName_iff run.consistent]
    rintro ⟨v, named⟩
    rw [name_registry] at named
    have others : ∀ n ∈ (suppliedCache.perform sampleCrypto
      (.save 2 (samplePublic 1))).names.values,
        n ≠ sampleName := by decide +kernel
    exact others _ (HashMap.mem_values named) rfl
  obtain ⟨key, live, parent⟩ : ∃ key, (suppliedCache.perform sampleCrypto (.save 2 (samplePublic 1))
      ).contexts.lookup 0x80000000 = some key ∧ key.parent = samplePublic 1 :=
    Option.map_eq_some_iff.mp (by decide +kernel)
  refine (supplied_resolves (AList.lookup_insert _) (recordsAgreeOn_empty _ _) run gone).2
    (.new 0x80000000) key live ?_ ?_ ?_ 0
  · rw [parent]
    decide
  · rw [parent]
    decide +kernel
  · exact fun persistent => absurd persistent.1 (by decide)

/-- A key that has the name of a persistent one takes its entry along when it is removed. -/
theorem supplied_resolves_fails : ¬ ∀ crypto supplied dir n p cache, supplied.lookup n = some p →
    Run crypto supplied dir (NeverNames p) cache → ¬ LiveName crypto cache n →
    cache.handles.lookup n = some p := by
  intro claim
  let cache := (suppliedCache.perform sampleCrypto (.save 1 noParent)).perform sampleCrypto
    (.remove (.new 0x80000000))
  have other : (.new 0x80000000 : TpmHandle) ≠ .new 0x81000001 := by decide
  have run : Run sampleCrypto sampleSupplied emptyDir (NeverNames (.new 0x81000001)) cache :=
    .step (.remove (.new 0x80000000)) (.step (.save 1 noParent) (suppliedCache_run _ _) trivial)
      other
  have empty : cache.contexts = ∅ := AList.ext (by decide +kernel)
  have gone : ¬ LiveName sampleCrypto cache sampleName := by
    rintro ⟨v, key, live, -⟩
    simp [empty] at live
  have resolves := claim sampleCrypto sampleSupplied emptyDir sampleName (.new 0x81000001) cache
    (AList.lookup_insert _) run gone
  have lost : cache.handles.lookup sampleName = none := by decide +kernel
  rw [lost] at resolves
  cases resolves

end VtpmCache
end Tpm2
