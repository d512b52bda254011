import Tpm2.Vtpm.Run

/-! Families of keys: what a removal takes along, what it leaves behind when it fails, and what
moving a key to a persistent handle costs its children. -/

namespace Tpm2

open ByteCodec

namespace VtpmCache

/-- The area can be encoded. -/
def Encodes (pub : TpmtPublic) : Prop := ∃ bytes, parentKeyBytes pub = .ok bytes

theorem encodes_of_writable {pub : TpmtPublic} (writable : Writable pub) : Encodes pub := by
  obtain ⟨bytes, length, emits⟩ := codec.emits writable
  have fits : bytes.length ≤ (Cursor.zeros (len pub)).room := by
    rw [Cursor.zeros_room, length]
  exact ⟨_, bind_eq_ok.mpr ⟨_, mapError_eq_ok.mpr (emits.ok fits), rfl⟩⟩

variable {crypto : Libcrypto} {supplied : HashMap Tpm2bName TpmHandle} {dir : Directory}
  {Meets : VtpmCache → Op → Prop} {cache cache' : VtpmCache} {handle : TpmHandle}
  {handles : List TpmHandle} {key : VtpmKey} {v w : UInt32}

/-- The public area of a live context has a name, so it can be encoded. -/
theorem Run.encodes (run : Run crypto supplied dir Meets cache)
    (live : cache.contexts.lookup v = some key) : Encodes key.public := by
  have consistent := run.consistent
  obtain ⟨name, named⟩ := Option.isSome_iff_exists.mp
    ((consistent.named v).mpr (by rw [key_registry, live]; rfl))
  exact encodes_of_writable (writable_of_tpmMakeName (consistent.name_eq v key name live named))

/-- A removal that succeeds returns its handle and then, without duplicates, everything that
descends from it by the encodings of the areas. Every other context stays with its record, its name
and its dirty flag, and no remaining one has a removed one as its parent. -/
theorem remove_cascades (live : cache.contexts.lookup handle.value = some key)
    (ok : (remove handle).run cache = .ok handles cache') :
    handles.head? = some handle ∧ handles.Nodup ∧
    (∀ h, h ∈ handles ↔ Relation.ReflTransGen cache.ChildOf handle.value h.value) ∧
    (∀ v, Relation.ReflTransGen cache.ChildOf handle.value v →
      cache'.contexts.lookup v = none ∧ cache'.names.lookup v = none ∧ v ∉ cache'.dirty) ∧
    (∀ v, ¬ Relation.ReflTransGen cache.ChildOf handle.value v →
      cache'.contexts.lookup v = cache.contexts.lookup v ∧
      cache'.names.lookup v = cache.names.lookup v ∧ (v ∈ cache'.dirty ↔ v ∈ cache.dirty)) ∧
    ∀ v w removed remaining, cache.contexts.lookup v = some removed →
      cache'.contexts.lookup v = none → cache'.contexts.lookup w = some remaining →
      remaining.parent ≠ removed.public := by
  obtain ⟨gone, rfl, drops, reaches, encodes⟩ := remove_ok live ok
  have inj : Function.Injective (TpmInt.new : UInt32 → TpmHandle) :=
    Function.LeftInverse.injective TpmInt.value_new
  have all : handle :: gone.map TpmInt.new = (handle.value :: gone).map TpmInt.new := by
    rw [List.map_cons, TpmInt.new_value]
  refine ⟨rfl, ?_, fun h => ?_, fun v reached => ?_, fun v spared => ?_, ?_⟩
  · rw [all]
    exact drops.nodup.map inj
  · rw [all, ← reaches, List.mem_map]
    constructor
    · rintro ⟨v, mem, rfl⟩
      rwa [TpmInt.value_new]
    · exact fun mem => ⟨h.value, mem, TpmInt.new_value h⟩
  · have mem := (reaches v).mpr reached
    refine ⟨by rw [drops.contexts, if_pos mem], ?_, fun dirty => ((drops.dirty v).mp dirty).2 mem⟩
    rw [← name_registry, drops.registry]
    exact NameIndex.name_retire_of_mem mem
  · have other : v ∉ handle.value :: gone := fun mem => spared ((reaches v).mp mem)
    refine ⟨by rw [drops.contexts, if_neg other], ?_, ?_⟩
    · rw [← name_registry, drops.registry]
      exact NameIndex.name_retire_of_notMem other
    · rw [drops.dirty, and_iff_left other]
  · intro v w removed remaining wasLive isGone stays same
    obtain ⟨other, live'⟩ := drops.contexts_eq_some.mp stays
    have taken : v ∈ handle.value :: gone := by
      by_contra kept
      rw [drops.contexts, if_neg kept, wasLive] at isGone
      cases isGone
    have notRoot : w ≠ handle.value := fun eq => other (eq ▸ List.mem_cons_self)
    obtain ⟨bytes, encoded⟩ := encodes w remaining notRoot live'
    have child : cache.ChildOf v w :=
      ⟨removed, remaining, bytes, wasLive, live', same ▸ encoded, encoded⟩
    exact other ((reaches w).mpr (((reaches v).mp taken).tail child))

-- The second context of key 1 does not descend from the first.
example : Fallible.value? ((remove (.new 0x80000000)).run
    ([.save 1 noParent, .save 2 (samplePublic 1), .save 1 noParent].foldl (perform sampleCrypto)
      emptyCache)) = some [.new 0x80000000, .new 0x80000001] := by
  decide +kernel

/-- A key 1, its child, a grandchild that is its own child too, and a second context of key 1. -/
def sampleFamily : VtpmCache :=
  [.save 1 noParent, .save 2 (samplePublic 1), .save 3 (samplePublic 2), .save 3 (samplePublic 3),
    .save 1 noParent].foldl (perform sampleCrypto) emptyCache

theorem remove_cascades_family : ∃ handles cache',
    (remove (.new 0x80000000)).run sampleFamily = .ok handles cache' ∧ handles.Nodup := by
  obtain ⟨key, live⟩ : ∃ key, sampleFamily.contexts.lookup 0x80000000 = some key :=
    Option.isSome_iff_exists.mp (by decide +kernel)
  obtain ⟨handles, returned⟩ : ∃ handles,
      Fallible.value? ((remove (.new 0x80000000)).run sampleFamily) = some handles :=
    Option.isSome_iff_exists.mp (by decide +kernel)
  have ok := Fallible.value?_eq_some.mp returned
  exact ⟨handles, _, ok, (remove_cascades (by exact live) ok).2.1⟩

/-- Deleting a record takes one fault, and fails only where the directory stops. -/
theorem run_delete (key : VtpmKey) (dir : Directory) : ∃ dir', dir'.faults = dir.faults.tail ∧
    ((∃ e, Directory.Stops dir.faults[0]? ∧ key.delete.run dir = .error e dir') ∨
      ¬ Directory.Stops dir.faults[0]? ∧ key.delete.run dir = .ok () dir') := by
  obtain ⟨dir', faults, ⟨e, stops, present, ran⟩ | ⟨goesOn, ran | ran⟩⟩ :=
    Directory.run_removeFile (binName key.handle.value) dir
  · refine ⟨dir', faults, .inl ⟨.io e, stops, ?_⟩⟩
    rw [VtpmKey.delete, EStateM.run_bind, Fallible.run_outcome, ran]
    cases e with
    | notFound => exact (present rfl).elim
    | other code => rfl
  all_goals
    refine ⟨dir', faults, .inr ⟨goesOn, ?_⟩⟩
    rw [VtpmKey.delete, EStateM.run_bind, Fallible.run_outcome, ran]
    rfl

theorem delete_of_healthy (key : VtpmKey) {dir : Directory} (healthy : dir.Healthy) :
    ∃ dir', dir'.Healthy ∧ key.delete.run dir = .ok () dir' := by
  obtain ⟨dir', faults, ⟨e, stops, -⟩ | ⟨-, ran⟩⟩ := run_delete key dir
  · exact (healthy.not_stops 0 stops).elim
  · exact ⟨dir', fun f mem => healthy f (List.mem_of_mem_tail (faults ▸ mem)), ran⟩

theorem removeChildren_of_healthy {children : List (UInt32 × TpmtPublic)}
    (encodes : ∀ child ∈ children, Encodes child.2) (deleted : List UInt32)
    {ancestors : List TpmtPublic} (queued : ∀ pub ∈ ancestors, Encodes pub) {cache : VtpmCache}
    (healthy : cache.cacheDir.Healthy) : ∃ deleted' ancestors' cache',
      (removeChildren children deleted ancestors).run cache = .ok (deleted', ancestors') cache' ∧
      (∀ pub ∈ ancestors', Encodes pub) ∧ cache'.cacheDir.Healthy := by
  induction children generalizing deleted ancestors cache with
  | nil => exact ⟨deleted, ancestors, cache, rfl, queued, healthy⟩
  | cons child children ih =>
      obtain ⟨own, encodes⟩ := List.forall_mem_cons.mp encodes
      rw [removeChildren_cons]
      cases cache.contexts.lookup child.1 with
      | none => exact ih encodes deleted queued healthy
      | some context =>
          obtain ⟨dir, healthy', deletes⟩ := delete_of_healthy context healthy
          dsimp only
          rw [deletes]
          refine ih encodes _ (List.forall_mem_append.mpr ⟨queued, by simpa using own⟩) ?_
          simpa [takeOut, withDir] using healthy'

theorem removeLoop_of_healthy {children : HashMap Bytes (List (UInt32 × TpmtPublic))}
    (encodes : ∀ bytes, ∀ child ∈ childrenAt children bytes, Encodes child.2)
    (ancestors : List TpmtPublic) (queued : ∀ pub ∈ ancestors, Encodes pub)
    (deleted : List UInt32) (cache : VtpmCache) (healthy : cache.cacheDir.Healthy) :
    ∃ deleted' cache', removeLoop children ancestors deleted cache = .ok deleted' cache' := by
  induction ancestors, deleted, cache using removeLoop.induct children with
  | case1 deleted cache =>
      rw [removeLoop]
      exact ⟨deleted, cache, rfl⟩
  | case2 ancestor ancestors deleted cache e failed =>
      obtain ⟨bytes, encoded⟩ := queued ancestor List.mem_cons_self
      rw [failed] at encoded
      cases encoded
  | case3 ancestor ancestors deleted cache bytes encoded e cache' ran =>
      obtain ⟨_, _, _, done, -⟩ := removeChildren_of_healthy (encodes bytes) deleted
        (List.forall_mem_cons.mp queued).2 healthy
      rw [childrenAt, ran] at done
      cases done
  | case4 ancestor ancestors deleted cache bytes encoded deleted' ancestors' cache' ran ih =>
      obtain ⟨_, _, _, done, queued', healthy'⟩ := removeChildren_of_healthy (encodes bytes) deleted
        (List.forall_mem_cons.mp queued).2 healthy
      rw [childrenAt, ran] at done
      cases done
      rw [removeLoop, encoded]
      dsimp only
      rw [ran]
      exact ih queued' healthy'

/-- The filing of the children fails at a parent that cannot be encoded. -/
theorem parentToChildren_error {entries : List (Sigma fun _ : UInt32 => VtpmKey)}
    {entry : Sigma fun _ : UInt32 => VtpmKey} (mem : entry ∈ entries)
    (unencodable : ¬ Encodes entry.2.parent)
    (children : HashMap Bytes (List (UInt32 × TpmtPublic))) :
    ∃ e, parentToChildren entries children = .error e := by
  cases filing : parentToChildren entries children with
  | error e => exact ⟨e, rfl⟩
  | ok children' => exact (unencodable ((parentToChildren_spec filing).1 entry mem)).elim

/-- Without file errors, a removal succeeds when all areas it looks at can be encoded. -/
theorem remove_of_healthy (healthy : cache.cacheDir.Healthy)
    (publics : ∀ v key, cache.contexts.lookup v = some key → Encodes key.public)
    (parents : ∀ w child, w ≠ handle.value → cache.contexts.lookup w = some child →
      Encodes child.parent) :
    ∃ handles cache', (remove handle).run cache = .ok handles cache' := by
  rw [run_remove]
  cases live : cache.contexts.lookup handle.value with
  | none => exact ⟨[], cache, rfl⟩
  | some key =>
      obtain ⟨dir', healthy', deletes⟩ := delete_of_healthy key healthy
      have parents' : ∀ entry ∈ ((cache.withDir dir').takeOut handle.value).contexts.entries,
          Encodes entry.2.parent := by
        intro entry mem
        rw [HashMap.mem_entries, contexts_takeOut, HashMap.lookup_erase_ite] at mem
        split at mem
        · cases mem
        next other => exact parents entry.1 entry.2 other mem
      obtain ⟨children, filing⟩ := parentToChildren_ok ∅ parents'
      have filed := filedChildren_takeOut filing
      have childPublics : ∀ bytes, ∀ child ∈ childrenAt children bytes, Encodes child.2 := by
        intro bytes child mem
        obtain ⟨-, key', live', own, -⟩ := (filed bytes child).mp mem
        exact own ▸ publics child.1 key' live'
      obtain ⟨deleted, cache', ok⟩ := removeLoop_of_healthy childPublics [key.public]
        (by simpa using publics handle.value key live) []
        ((cache.withDir dir').takeOut handle.value) (by simpa [takeOut, withDir] using healthy')
      dsimp only
      rw [deletes]
      dsimp only
      rw [run_removeSubtree, filing]
      dsimp only
      rw [ok]
      exact ⟨_, _, rfl⟩

theorem remove_healthy (handle : TpmHandle) :
    Fallible.Moves (fun a b => a.cacheDir.Healthy → b.cacheDir.Healthy) (remove handle) := by
  have tail (key : VtpmKey) {dir : Directory} (healthy : dir.Healthy) :
      (Fallible.after (key.delete.run dir)).Healthy := by
    obtain ⟨dir', faults, ran⟩ := run_delete key dir
    have same : Fallible.after (key.delete.run dir) = dir' := by
      rcases ran with ⟨e, -, ran⟩ | ⟨-, ran⟩ <;> rw [ran] <;> rfl
    exact same ▸ fun f mem => healthy f (List.mem_of_mem_tail (faults ▸ mem))
  refine remove_moves (R := fun a b => a.cacheDir.Healthy → b.cacheDir.Healthy) (fun _ => id)
    (fun first next => next ∘ first) (fun {_ _ key _ _} _ deletes healthy => ?_)
    (fun {_ _ key _} _ deletes healthy => ?_) handle
  · have kept := tail key healthy
    rw [deletes] at kept
    exact kept
  · have kept := tail key healthy
    rw [deletes] at kept
    simpa [takeOut, withDir] using kept

/-- Without file errors the handle of a removal is gone, even when the removal fails. -/
theorem remove_gone (healthy : cache.cacheDir.Healthy) (handle : TpmHandle) :
    (Fallible.after ((remove handle).run cache)).contexts.lookup handle.value = none := by
  rw [run_remove]
  cases live : cache.contexts.lookup handle.value with
  | none => exact live
  | some key =>
      obtain ⟨dir, -, deletes⟩ := delete_of_healthy key healthy
      have live' : (cache.withDir dir).contexts.lookup handle.value = some key := live
      obtain ⟨taken, -, drops, -⟩ := removeSubtree_drops live'
      have gone := drops.contexts handle.value
      rw [List.map_cons, if_pos List.mem_cons_self] at gone
      dsimp only
      rw [deletes]
      dsimp only
      cases ran : (removeSubtree key.public).run ((cache.withDir dir).takeOut handle.value) with
      | error e cache' =>
          rw [ran] at gone
          exact gone
      | ok deleted cache' =>
          rw [ran] at gone
          exact gone

/-- A removal next to a context whose parent cannot be encoded fails after its handle has gone, if
it gets to delete the file. -/
theorem remove_of_unencodable {dir' : Directory} {child : VtpmKey}
    (live : cache.contexts.lookup handle.value = some key)
    (deletes : key.delete.run cache.cacheDir = .ok () dir') (other : w ≠ handle.value)
    (childLive : cache.contexts.lookup w = some child) (unencodable : ¬ Encodes child.parent) :
    ∃ e, (remove handle).run cache = .error e ((cache.withDir dir').takeOut handle.value) := by
  have mem : ⟨w, child⟩ ∈ ((cache.withDir dir').takeOut handle.value).contexts.entries := by
    rw [HashMap.mem_entries, contexts_takeOut, HashMap.lookup_erase_ite, if_neg other]
    exact childLive
  obtain ⟨e, failed⟩ := parentToChildren_error mem unencodable ∅
  refine ⟨e, ?_⟩
  rw [run_remove, live]
  dsimp only
  rw [deletes]
  dsimp only
  rw [run_removeSubtree, failed]

/-- Two caches with the same contexts, index, dirty flags and files. -/
structure Unchanged (cache cache' : VtpmCache) : Prop where
  contexts : ∀ v, cache'.contexts.lookup v = cache.contexts.lookup v
  handles : ∀ n, cache'.handles.lookup n = cache.handles.lookup n
  names : ∀ v, cache'.names.lookup v = cache.names.lookup v
  dirty : ∀ v, v ∈ cache'.dirty ↔ v ∈ cache.dirty
  files : ∀ path, cache'.cacheDir.files.lookup path = cache.cacheDir.files.lookup path

/-- Without file errors, a removal succeeds or changes nothing exactly when there is nothing to
remove or the parents of all other contexts can be encoded. -/
theorem remove_atomic_iff (run : Run crypto supplied dir AnyOp cache)
    (healthy : cache.cacheDir.Healthy) (handle : TpmHandle) :
    ((∃ handles cache', (remove handle).run cache = .ok handles cache') ∨
      ∃ e cache', (remove handle).run cache = .error e cache' ∧ cache.Unchanged cache') ↔
    cache.contexts.lookup handle.value = none ∨
      ∀ w child, w ≠ handle.value → cache.contexts.lookup w = some child →
        Encodes child.parent := by
  cases live : cache.contexts.lookup handle.value with
  | none =>
      refine iff_of_true (.inl ⟨[], cache, ?_⟩) (.inl rfl)
      rw [run_remove, live]
  | some key =>
      constructor
      · refine fun atomic => .inr fun w child other childLive => ?_
        by_contra unencodable
        obtain ⟨dir', -, deletes⟩ := delete_of_healthy key healthy
        obtain ⟨e, failed⟩ := remove_of_unencodable live deletes other childLive unencodable
        rw [failed] at atomic
        rcases atomic with ⟨_, _, ok⟩ | ⟨_, _, failed, same⟩
        · cases ok
        · cases failed
          have kept := same.contexts handle.value
          rw [contexts_takeOut, AList.lookup_erase, live] at kept
          cases kept
      · rintro (dead | parents)
        · cases dead
        · exact .inl (remove_of_healthy healthy (fun v key => run.encodes) parents)

/-- A public area whose payload does not match its type. -/
def mismatched : TpmtPublic := { samplePublic 1 with objectType := .rsa }

/-- A cache with one key, whose parent cannot be encoded. -/
def mismatchedCache : VtpmCache := emptyCache.perform sampleCrypto (.save 1 mismatched)

theorem mismatchedCache_run : Run sampleCrypto ∅ emptyDir AnyOp mismatchedCache :=
  .step (.save 1 mismatched) (emptyCache_run _ _) trivial

theorem remove_atomic_iff_saved :
    (∃ handles cache', (remove (.new 0x80000000)).run mismatchedCache = .ok handles cache') ∨
    ∃ e cache', (remove (.new 0x80000000)).run mismatchedCache = .error e cache' ∧
      mismatchedCache.Unchanged cache' := by
  have none : mismatchedCache.cacheDir.faults = [] := by decide +kernel
  have only : mismatchedCache.contexts.keys.all (· == (.new 0x80000000 : TpmHandle).value) := by
    decide +kernel
  refine (remove_atomic_iff mismatchedCache_run (by simp [Directory.Healthy, none]) _).mpr
    (.inr fun w child other live => ?_)
  have mem : w ∈ mismatchedCache.contexts := AList.lookup_isSome.mp (by rw [live]; rfl)
  have same := List.all_eq_true.mp only w (AList.mem_keys.mp mem)
  exact (other (eq_of_beq same)).elim

/-- Removing a key next to one whose parent cannot be encoded fails, but the key is gone. -/
theorem remove_atomic_fails : ¬ ∀ crypto supplied dir cache handle,
    Run crypto supplied dir AnyOp cache → cache.cacheDir.Healthy →
      (∃ handles cache', (remove handle).run cache = .ok handles cache') ∨
        ∃ e cache', (remove handle).run cache = .error e cache' ∧ cache.Unchanged cache' := by
  intro claim
  let cache := mismatchedCache.perform sampleCrypto (.save 2 noParent)
  have run : Run sampleCrypto ∅ emptyDir AnyOp cache :=
    .step (.save 2 noParent) mismatchedCache_run trivial
  have none : cache.cacheDir.faults = [] := by decide +kernel
  have failed : Fallible.value? ((remove (.new 0x80000001)).run cache) = .none := by decide +kernel
  have gone : (Fallible.after ((remove (.new 0x80000001)).run cache)).contexts.lookup 0x80000001 =
      .none := by decide +kernel
  have live : (cache.contexts.lookup 0x80000001).isSome := by decide +kernel
  rcases claim _ _ _ cache (.new 0x80000001) run (by simp [Directory.Healthy, none]) with
    ⟨handles, cache', ok⟩ | ⟨e, cache', error, same⟩
  · rw [ok] at failed
    cases failed
  · rw [error, Fallible.after_error, same.contexts] at gone
    rw [gone] at live
    cases live

end VtpmCache
end Tpm2
