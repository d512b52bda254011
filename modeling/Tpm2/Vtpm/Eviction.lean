import Tpm2.Vtpm.Cascade

/-! Moving a key to a persistent handle: the cache stores the persistent context and removes the
transient one. -/

namespace Tpm2

open ByteCodec

namespace VtpmCache

variable {crypto : Libcrypto} {supplied : HashMap Tpm2bName TpmHandle} {dir : Directory}
  {Meets : VtpmCache → Op → Prop} {cache cache' : VtpmCache} {t p : TpmHandle}
  {key : VtpmKey} {v : UInt32}

/-- The cache part of `Evict::run`: `key` is the context of the transient handle `t`. -/
def evict (crypto : Libcrypto) (cache : VtpmCache) (t p : TpmHandle) (key : VtpmKey) : VtpmCache :=
  (cache.perform crypto (.savePersistent p key.public key.parent (some key.policy))).perform crypto
    (.remove t)

/-- A context that is gone does not come back while children are removed. -/
theorem removeChildren_dead (children : List (UInt32 × TpmtPublic)) (deleted : List UInt32)
    (ancestors : List TpmtPublic) (dead : cache.contexts.lookup v = none) :
    (Fallible.after ((removeChildren children deleted ancestors).run cache)).contexts.lookup v =
      none := by
  obtain ⟨new, -, drops, -⟩ := removeChildren_drops children deleted ancestors cache
  rw [drops.contexts, dead, ite_self]

theorem removeLoop_dead (children : HashMap Bytes (List (UInt32 × TpmtPublic)))
    (ancestors : List TpmtPublic) (deleted : List UInt32) (cache : VtpmCache)
    (dead : cache.contexts.lookup v = none) :
    (Fallible.after (removeLoop children ancestors deleted cache)).contexts.lookup v = none := by
  induction ancestors, deleted, cache using removeLoop.induct children with
  | case1 deleted cache =>
      rw [removeLoop]
      exact dead
  | case2 ancestor ancestors deleted cache e failed =>
      rw [removeLoop, failed]
      exact dead
  | case3 ancestor ancestors deleted cache bytes encoded e cache' ran =>
      rw [removeLoop, encoded]
      dsimp only
      have dead' := removeChildren_dead (childrenAt children bytes) deleted ancestors dead
      rw [childrenAt, ran] at dead'
      rw [ran]
      exact dead'
  | case4 ancestor ancestors deleted cache bytes encoded deleted' ancestors' cache' ran ih =>
      rw [removeLoop, encoded]
      dsimp only
      have dead' := removeChildren_dead (childrenAt children bytes) deleted ancestors dead
      rw [childrenAt, ran] at dead'
      rw [ran]
      exact ih dead'

/-- The first two file operations of a removal decide whether it reaches a child of its handle. -/
def StopsEarly (dir : Directory) : Prop :=
  Directory.Stops dir.faults[0]? ∨ Directory.Stops dir.faults[1]?

theorem lookup_takeOut_of_ne {w : UInt32} (other : w ≠ v) :
    (cache.takeOut v).contexts.lookup w = cache.contexts.lookup w := by
  rw [contexts_takeOut, HashMap.lookup_erase_ite, if_neg other]

/-- Whether a removal leaves all other contexts alone: it does when its handle has no children, some
parent cannot be encoded, or the file operations stop it early. -/
theorem remove_alone_iff (encodes : Encodes key.public)
    (live : cache.contexts.lookup t.value = some key) :
    (∀ w, w ≠ t.value → (Fallible.after ((remove t).run cache)).contexts.lookup w =
      cache.contexts.lookup w) ↔
    (∀ w, w ≠ t.value → ¬ cache.ChildOf t.value w) ∨
      (∃ w child, w ≠ t.value ∧ cache.contexts.lookup w = some child ∧ ¬ Encodes child.parent) ∨
      StopsEarly cache.cacheDir := by
  rw [run_remove, live]
  dsimp only
  obtain ⟨dir', faults, ⟨e, stops, failed⟩ | ⟨first, deletes⟩⟩ := run_delete key cache.cacheDir
  · rw [failed]
    exact iff_of_true (fun _ _ => rfl) (.inr (.inr (.inl stops)))
  rw [deletes]
  dsimp only
  rw [run_removeSubtree]
  have rest : ∀ w, w ≠ t.value → ((cache.withDir dir').takeOut t.value).contexts.lookup w =
      cache.contexts.lookup w := fun w other => lookup_takeOut_of_ne other
  cases filing : parentToChildren ((cache.withDir dir').takeOut t.value).contexts.entries ∅ with
  | error e =>
      refine iff_of_true rest (.inr (.inl ?_))
      by_contra all
      push Not at all
      have encodes : ∀ entry ∈ ((cache.withDir dir').takeOut t.value).contexts.entries,
          ∃ bytes, parentKeyBytes entry.2.parent = .ok bytes := by
        intro entry mem
        rw [HashMap.mem_entries, contexts_takeOut, HashMap.lookup_erase_ite] at mem
        split at mem
        · cases mem
        next other => exact all entry.1 entry.2 other mem
      obtain ⟨children, ok⟩ := parentToChildren_ok ∅ encodes
      rw [filing] at ok
      cases ok
  | ok children =>
      have filed := filedChildren_takeOut filing
      obtain ⟨bytes, encoded⟩ := encodes
      dsimp only
      rw [removeLoop, encoded]
      dsimp only
      cases list : (children.lookup bytes).getD [] with
      | nil =>
          rw [removeChildren_nil]
          dsimp only
          rw [removeLoop]
          refine iff_of_true rest (.inl fun w other isChild => ?_)
          obtain ⟨parent, child, bytes', parentLive, childLive, encoded', filedUnder⟩ := isChild
          rw [live] at parentLive
          cases parentLive
          rw [encoded] at encoded'
          cases encoded'
          have mem := (filed bytes (w, child.public)).mpr ⟨other, child, childLive, rfl, filedUnder⟩
          rw [childrenAt, list] at mem
          cases mem
      | cons child siblings =>
          have mem : child ∈ childrenAt children bytes := by
            rw [childrenAt, list]
            exact List.mem_cons_self
          obtain ⟨other, childKey, childLive, -, filedUnder⟩ := (filed bytes child).mp mem
          have childLive' : ((cache.withDir dir').takeOut t.value).contexts.lookup child.1 =
              some childKey := (rest child.1 other).trans childLive
          have head : ((cache.withDir dir').takeOut t.value).cacheDir.faults[0]? =
              cache.cacheDir.faults[1]? := by
            simp [takeOut, withDir, faults]
          rw [removeChildren_cons, childLive']
          dsimp only
          obtain ⟨dir'', -, ⟨e, stops, failed⟩ | ⟨second, deletes'⟩⟩ :=
            run_delete childKey ((cache.withDir dir').takeOut t.value).cacheDir
          · rw [failed]
            exact iff_of_true rest (.inr (.inr (.inr (head ▸ stops))))
          rw [deletes']
          dsimp only
          -- the first child goes
          refine iff_of_false (fun kept => ?_) ?_
          · have dead : ((((cache.withDir dir').takeOut t.value).withDir dir'').takeOut
                child.1).contexts.lookup child.1 = none := by
              rw [contexts_takeOut, AList.lookup_erase]
            have dead' := removeChildren_dead siblings ([] ++ [child.1]) ([] ++ [child.2]) dead
            have gone := kept child.1 other
            have childLive : cache.contexts.lookup child.1 = some childKey := childLive
            rw [childLive] at gone
            cases ran : (removeChildren siblings ([] ++ [child.1]) ([] ++ [child.2])).run
                ((((cache.withDir dir').takeOut t.value).withDir dir'').takeOut child.1) with
            | error e cache' =>
                rw [ran] at dead' gone
                rw [Fallible.after_error] at dead'
                dsimp only [Fallible.after_error] at gone
                rw [dead'] at gone
                cases gone
            | ok result cache' =>
                rw [ran] at dead' gone
                have dead'' := removeLoop_dead children result.2 result.1 cache' dead'
                dsimp only at gone
                cases looped : removeLoop children result.2 result.1 cache' with
                | error e last | ok deleted last =>
                    rw [looped] at dead'' gone
                    exact Option.some_ne_none childKey (gone.symm.trans dead'')
          · rintro (none | ⟨w, orphan, different, orphanLive, unencodable⟩ | stops | stops)
            · exact none child.1 other ⟨key, childKey, bytes, live, childLive, encoded, filedUnder⟩
            · refine unencodable ((parentToChildren_spec filing).1 ⟨w, orphan⟩ ?_)
              exact HashMap.mem_entries.mpr ((rest w different).trans orphanLive)
            · exact first stops
            · exact second (head ▸ stops)

/-- Storing a persistent key whose public area has a name succeeds. -/
theorem perform_savePersistent {pub parent : TpmtPublic} {name : Tpm2bName}
    (persistent : IsPersistent p.value) (named : tpmMakeName crypto pub = .ok name)
    (policy : Option (List VtpmPolicyCommand)) (cache : VtpmCache) :
    cache.perform crypto (.savePersistent p pub parent policy) =
      (cache.insertKey p.value ⟨.new version, p, pub, parent, persistentContext, policy.getD []⟩
        name).markDirty p.value := by
  rw [perform, savePersistent, if_neg (not_not_intro persistent), EStateM.run_bind,
    keyName_eq_ok.mpr named]
  rfl

/-- The two areas have no encoding in common. -/
def Unrelated (pub parent : TpmtPublic) : Prop :=
  ∀ bytes, parentKeyBytes pub = .ok bytes → parentKeyBytes parent ≠ .ok bytes

/-- Moving the key of a transient handle to a persistent one that is not in the cache keeps all
other contexts, and the persistent one, exactly when no live context has the key as its parent, or
some parent cannot be encoded, or the file operations stop the removal early. -/
theorem evict_keeps_iff (run : Run crypto supplied dir AnyOp cache)
    (transient : IsTransient t.value) (live : cache.contexts.lookup t.value = some key)
    (persistent : IsPersistent p.value) (vacant : cache.contexts.lookup p.value = none) :
    ((∀ w other, w ≠ t.value → cache.contexts.lookup w = some other →
        (cache.evict crypto t p key).contexts.lookup w = some other) ∧
      ∃ moved, (cache.evict crypto t p key).contexts.lookup p.value = some moved) ↔
    (∀ w child, cache.contexts.lookup w = some child → Unrelated key.public child.parent) ∨
      (∃ w child, cache.contexts.lookup w = some child ∧ ¬ Encodes child.parent) ∨
      StopsEarly cache.cacheDir := by
  have consistent := run.consistent
  obtain ⟨name, published⟩ := Option.isSome_iff_exists.mp
    ((consistent.named t.value).mpr (by rw [key_registry, live]; rfl))
  have named := consistent.name_eq t.value key name live published
  have different : t.value ≠ p.value := by
    intro same
    rw [same] at transient
    rw [isTransient_iff] at transient
    rw [isPersistent_iff] at persistent
    omega
  rw [evict, perform_savePersistent persistent named]
  generalize moved_eq : (⟨.new version, p, key.public, key.parent, persistentContext,
    (some key.policy).getD []⟩ : VtpmKey) = moved
  generalize saved_eq : (cache.insertKey p.value moved name).markDirty p.value = saved
  have parent_eq : moved.parent = key.parent := by rw [← moved_eq]
  have contexts : ∀ w, saved.contexts.lookup w =
      if w = p.value then some moved else cache.contexts.lookup w := by
    intro w
    have stored := congrArg (Registry.key · w) (registry_insertKey cache p.value moved name)
    rw [← saved_eq]
    refine stored.trans ?_
    simp only [Registry.store, Function.update_apply, key_registry]
  have live' : saved.contexts.lookup t.value = some key := by
    rw [contexts, if_neg different, live]
  have sameDir : saved.cacheDir = cache.cacheDir := by
    rw [← saved_eq]
    exact cacheDir_insertKey cache p.value moved name
  obtain ⟨gone, drops, -⟩ := remove_drops t saved
  -- the parents besides that of `t`: the moved context has the same parent as `t`
  have parents : ∀ P : TpmtPublic → Prop,
      (∃ w child, w ≠ t.value ∧ saved.contexts.lookup w = some child ∧ P child.parent) ↔
        ∃ w child, cache.contexts.lookup w = some child ∧ P child.parent := by
    intro P
    constructor
    · rintro ⟨w, child, -, childLive, holds⟩
      rw [contexts] at childLive
      split at childLive
      · cases childLive
        exact ⟨t.value, key, live, parent_eq ▸ holds⟩
      · exact ⟨w, child, childLive, holds⟩
    · rintro ⟨w, child, childLive, holds⟩
      by_cases own : w = t.value
      · subst own
        rw [live] at childLive
        cases childLive
        exact ⟨p.value, moved, different.symm, by rw [contexts, if_pos rfl], parent_eq ▸ holds⟩
      · have notMoved : w ≠ p.value := by
          rintro rfl
          rw [vacant] at childLive
          cases childLive
        exact ⟨w, child, own, by rw [contexts, if_neg notMoved, childLive], holds⟩
  refine Iff.trans ?keeps ((remove_alone_iff (run.encodes live) live').trans
    (or_congr ?children (or_congr (parents fun parent => ¬ Encodes parent) (sameDir ▸ .rfl))))
  case keeps =>
    constructor
    · rintro ⟨kept, moved', movedLive⟩ w other
      rw [contexts]
      split
      next isMoved =>
        have own := (drops.contexts_eq_some.mp movedLive).2
        rw [contexts, if_pos rfl] at own
        rw [isMoved, own]
        exact movedLive
      next notMoved =>
        cases was : cache.contexts.lookup w with
        | some child => exact kept w child other was
        | none =>
            refine (drops.contexts w).trans ?_
            rw [contexts, if_neg notMoved, was, ite_self]
    · intro kept
      refine ⟨fun w other notRoot was => ?_, moved, ?_⟩
      · have notMoved : w ≠ p.value := by
          rintro rfl
          rw [vacant] at was
          cases was
        refine (kept w notRoot).trans ?_
        rw [contexts, if_neg notMoved, was]
      · refine (kept p.value different.symm).trans ?_
        rw [contexts, if_pos rfl]
  case children =>
    have related := parents fun parent =>
      ∃ bytes, parentKeyBytes key.public = .ok bytes ∧ parentKeyBytes parent = .ok bytes
    constructor
    · intro none w child childLive bytes encoded filedUnder
      obtain ⟨w', child', other, childLive', bytes', encoded', filedUnder'⟩ :=
        related.mpr ⟨w, child, childLive, bytes, encoded, filedUnder⟩
      exact none w' other ⟨key, child', bytes', live', childLive', encoded', filedUnder'⟩
    · rintro unrelated w other ⟨parent, child, bytes, parentLive, childLive, encoded, filedUnder⟩
      rw [live'] at parentLive
      cases parentLive
      obtain ⟨w', child', childLive', bytes', encoded', filedUnder'⟩ :=
        related.mp ⟨w, child, other, childLive, bytes, encoded, filedUnder⟩
      exact unrelated w' child' childLive' bytes' encoded' filedUnder'

/-- A key 1 and its child. -/
def sampleCouple : VtpmCache :=
  (emptyCache.perform sampleCrypto (.save 1 noParent)).perform sampleCrypto
    (.save 2 (samplePublic 1))

theorem sampleCouple_run : Run sampleCrypto ∅ emptyDir AnyOp sampleCouple :=
  .step (.save 2 (samplePublic 1)) (.step (.save 1 noParent) (emptyCache_run _ _) trivial) trivial

theorem evict_keeps_iff_child : ∃ key moved,
    (sampleCouple.evict sampleCrypto (.new 0x80000001) (.new 0x81000001) key).contexts.lookup
      (.new 0x81000001 : TpmHandle).value = some moved := by
  obtain ⟨key, live, own⟩ : ∃ key, sampleCouple.contexts.lookup
    (.new 0x80000001 : TpmHandle).value =
      some key ∧ key.public = samplePublic 2 :=
    Option.map_eq_some_iff.mp (by decide +kernel)
  have unrelated : ∀ entry ∈ sampleCouple.contexts.entries,
      (parentKeyBytes entry.2.parent).toOption ≠ (parentKeyBytes (samplePublic 2)).toOption := by
    decide +kernel
  have kept := (evict_keeps_iff (p := .new 0x81000001) sampleCouple_run (by decide) live (by decide)
    (by decide +kernel)).mpr (.inl fun w child childLive bytes encoded filedUnder => by
      refine unrelated ⟨w, child⟩ (HashMap.mem_entries.mpr childLive) ?_
      rw [filedUnder, ← encoded, own])
  exact ⟨key, kept.2⟩

/-- The child of a key goes when the key is moved. -/
theorem evict_keeps_fails : ¬ ∀ crypto supplied dir cache t p key,
    Run crypto supplied dir AnyOp cache → IsTransient t.value →
    cache.contexts.lookup t.value = some key → IsPersistent p.value →
    cache.contexts.lookup p.value = none →
    (∀ w other, w ≠ t.value → cache.contexts.lookup w = some other →
      (cache.evict crypto t p key).contexts.lookup w = some other) ∧
      ∃ moved, (cache.evict crypto t p key).contexts.lookup p.value = some moved := by
  intro claim
  let key : VtpmKey := ⟨.new version, .new 0x80000000, samplePublic 1, noParent, sampleContext, []⟩
  have live : sampleCouple.contexts.lookup (.new 0x80000000 : TpmHandle).value = some key := by
    decide +kernel
  obtain ⟨child, childLive⟩ : ∃ child, sampleCouple.contexts.lookup 0x80000001 = some child :=
    Option.isSome_iff_exists.mp (by decide +kernel)
  have kept := (claim _ _ _ _ (.new 0x80000000) (.new 0x81000001) key sampleCouple_run (by decide)
    live (by decide) (by decide +kernel)).1 0x80000001 child (by decide) childLive
  have gone : (sampleCouple.evict sampleCrypto (.new 0x80000000) (.new 0x81000001)
      key).contexts.lookup 0x80000001 = none := by decide +kernel
  rw [gone] at kept
  cases kept

end VtpmCache
end Tpm2
