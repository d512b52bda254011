import Tpm2.Algorithm.Worklist
import Tpm2.Vtpm.Refinement

/-! Removing a key with its descendants: which contexts go, on success and when the removal stops
half way, and that all others stay as they are. -/

namespace Tpm2

open ByteCodec

namespace VtpmCache

/-- `cache'` is `cache` without the contexts `gone`, which were all live. -/
structure Drops (gone : List UInt32) (cache cache' : VtpmCache) : Prop where
  nodup : gone.Nodup
  live : ∀ v ∈ gone, ∃ key, cache.contexts.lookup v = some key
  registry : cache'.registry = cache.registry.drop {v | v ∈ gone}
  dirty : ∀ v, v ∈ cache'.dirty ↔ v ∈ cache.dirty ∧ v ∉ gone
  next : cache'.nextVirtualHandle = cache.nextVirtualHandle

namespace Drops

variable {gone gone' : List UInt32} {a b c cache cache' : VtpmCache} {v : UInt32} {key : VtpmKey}

theorem refl (cache : VtpmCache) : Drops [] cache cache where
  nodup := .nil
  live := by simp
  registry := by simp
  dirty := by simp
  next := rfl

theorem withDir (drops : Drops gone a b) (dir : Directory) : Drops gone a (b.withDir dir) where
  nodup := drops.nodup
  live := drops.live
  registry := drops.registry
  dirty := drops.dirty
  next := drops.next

theorem contexts (drops : Drops gone a b) (v : UInt32) :
    b.contexts.lookup v = if v ∈ gone then none else a.contexts.lookup v := by
  have same := congrArg (Registry.key · v) drops.registry
  rw [key_registry] at same
  rw [same]
  by_cases mem : v ∈ gone <;> simp [Registry.drop, mem, key_registry]

theorem contexts_eq_some (drops : Drops gone a b) :
    b.contexts.lookup v = some key ↔ v ∉ gone ∧ a.contexts.lookup v = some key := by
  rw [drops.contexts]
  split
  next mem => simp [mem]
  next other => simp [other]

theorem trans (first : Drops gone a b) (second : Drops gone' b c) :
    Drops (gone ++ gone') a c where
  nodup := by
    refine first.nodup.append second.nodup fun v mem mem' => ?_
    obtain ⟨key, live⟩ := second.live v mem'
    exact (first.contexts_eq_some.mp live).1 mem
  live v mem := by
    rcases List.mem_append.mp mem with mem | mem
    · exact first.live v mem
    · obtain ⟨key, live⟩ := second.live v mem
      exact ⟨key, (first.contexts_eq_some.mp live).2⟩
  registry := by
    rw [second.registry, first.registry, Registry.drop_drop]
    congr 1
    ext v
    simp
  dirty v := by
    rw [second.dirty, first.dirty, List.mem_append]
    tauto
  next := second.next.trans first.next

theorem takeOut (live : cache.contexts.lookup v = some key) :
    Drops [v] cache (cache.takeOut v) where
  nodup := List.nodup_singleton v
  live w mem := by
    obtain rfl := List.mem_singleton.mp mem
    exact ⟨key, live⟩
  registry := by
    rw [registry_takeOut]
    congr 1
    ext w
    simp
  dirty w := by
    simp [VtpmCache.takeOut, AList.mem_erase, and_comm]
  next := by simp [VtpmCache.takeOut]

end Drops

/-- The children of the map whose parent encodes as `bytes`. -/
def childrenAt (children : HashMap Bytes (List (UInt32 × TpmtPublic))) (bytes : Bytes) :
    List (UInt32 × TpmtPublic) := (children.lookup bytes).getD []

/-- The entries are filed when all their parents can be encoded, each under the encoding. -/
theorem parentToChildren_ok {entries : List (Sigma fun _ : UInt32 => VtpmKey)}
    (children : HashMap Bytes (List (UInt32 × TpmtPublic)))
    (encodes : ∀ entry ∈ entries, ∃ bytes, parentKeyBytes entry.2.parent = .ok bytes) :
    ∃ children', parentToChildren entries children = .ok children' := by
  induction entries generalizing children with
  | nil => exact ⟨children, rfl⟩
  | cons entry entries ih =>
      obtain ⟨bytes, encoded⟩ := encodes entry List.mem_cons_self
      obtain ⟨children', ok⟩ := ih (children.push bytes (entry.1, entry.2.public))
        fun e mem => encodes e (List.mem_cons_of_mem _ mem)
      exact ⟨children', bind_eq_ok.mpr ⟨bytes, encoded, ok⟩⟩

theorem parentToChildren_spec {entries : List (Sigma fun _ : UInt32 => VtpmKey)}
    {children children' : HashMap Bytes (List (UInt32 × TpmtPublic))}
    (ok : parentToChildren entries children = .ok children') :
    (∀ entry ∈ entries, ∃ bytes, parentKeyBytes entry.2.parent = .ok bytes) ∧
      ∀ bytes child, child ∈ childrenAt children' bytes ↔ child ∈ childrenAt children bytes ∨
        ∃ entry ∈ entries, parentKeyBytes entry.2.parent = .ok bytes ∧
          child = (entry.1, entry.2.public) := by
  induction entries generalizing children with
  | nil =>
      cases ok
      simp
  | cons entry entries ih =>
      obtain ⟨bytes, encoded, ok⟩ := bind_eq_ok.mp ok
      obtain ⟨encodes, mem⟩ := ih ok
      refine ⟨List.forall_mem_cons.mpr ⟨⟨bytes, encoded⟩, encodes⟩, fun bytes' child => ?_⟩
      rw [mem, childrenAt, HashMap.mem_push, List.exists_mem_cons_iff, encoded, or_assoc,
        Except.ok.injEq, eq_comm (a := bytes)]
      rfl

/-- The loop over the children of one ancestor deletes those that are live, or stops before one of
them. -/
theorem removeChildren_drops (children : List (UInt32 × TpmtPublic)) (deleted : List UInt32)
    (ancestors : List TpmtPublic) (cache : VtpmCache) :
    ∃ new : List (UInt32 × TpmtPublic), (∀ child ∈ new, child ∈ children) ∧
      Drops (new.map Prod.fst) cache
        (Fallible.after ((removeChildren children deleted ancestors).run cache)) ∧
      ∀ result cache', (removeChildren children deleted ancestors).run cache = .ok result cache' →
        result = (deleted ++ new.map Prod.fst, ancestors ++ new.map Prod.snd) ∧
          ∀ child ∈ children, cache'.contexts.lookup child.1 = none := by
  induction children generalizing deleted ancestors cache with
  | nil =>
      refine ⟨[], by simp, .refl cache, fun result cache' ok => ?_⟩
      cases ok
      simp
  | cons child children ih =>
      rw [removeChildren_cons]
      split
      next dead =>
        obtain ⟨new, mem, drops, done⟩ := ih deleted ancestors cache
        refine ⟨new, fun c isNew => List.mem_cons_of_mem _ (mem c isNew), drops,
          fun result cache' ok => ?_⟩
        obtain ⟨same, gone⟩ := done result cache' ok
        rw [ok] at drops
        refine ⟨same, List.forall_mem_cons.mpr ⟨?_, gone⟩⟩
        rw [Fallible.after_ok] at drops
        rw [drops.contexts, dead, ite_self]
      next context live =>
        split
        next e dir _ =>
          exact ⟨[], by simp, (Drops.refl cache).withDir dir, nofun⟩
        next dir _ =>
          have live' : (cache.withDir dir).contexts.lookup child.1 = some context := live
          obtain ⟨new, mem, drops, done⟩ := ih (deleted ++ [child.1]) (ancestors ++ [child.2])
            ((cache.withDir dir).takeOut child.1)
          have first : Drops [child.1] cache ((cache.withDir dir).takeOut child.1) :=
            ((Drops.refl cache).withDir dir).trans (.takeOut live')
          refine ⟨child :: new, List.forall_mem_cons.mpr ⟨List.mem_cons_self, fun c isNew =>
            List.mem_cons_of_mem _ (mem c isNew)⟩, first.trans drops, fun result cache' ok => ?_⟩
          obtain ⟨same, gone⟩ := done result cache' ok
          rw [ok] at drops
          refine ⟨by simp [same], List.forall_mem_cons.mpr ⟨?_, gone⟩⟩
          rw [Fallible.after_ok] at drops
          rw [drops.contexts, contexts_takeOut, AList.lookup_erase, ite_self]

/-- `w` names the key of `v` as its parent: the areas have one encoding. -/
def ChildOf (cache : VtpmCache) (v w : UInt32) : Prop :=
  ∃ parent child bytes, cache.contexts.lookup v = some parent ∧
    cache.contexts.lookup w = some child ∧ parentKeyBytes parent.public = .ok bytes ∧
    parentKeyBytes child.parent = .ok bytes

/-- `w` is a live context with its public area, and a child of `pub`. -/
def IsChild (cache : VtpmCache) (pub : TpmtPublic) (w : UInt32 × TpmtPublic) : Prop :=
  ∃ child bytes, cache.contexts.lookup w.1 = some child ∧ child.public = w.2 ∧
    parentKeyBytes pub = .ok bytes ∧ parentKeyBytes child.parent = .ok bytes

/-- The search of `removeSubtree` works on the children that `cache` has besides `root`. -/
def FiledChildren (cache : VtpmCache) (root : UInt32)
    (children : HashMap Bytes (List (UInt32 × TpmtPublic))) : Prop :=
  ∀ bytes w, w ∈ childrenAt children bytes ↔ w.1 ≠ root ∧ ∃ child,
    cache.contexts.lookup w.1 = some child ∧ child.public = w.2 ∧
      parentKeyBytes child.parent = .ok bytes

theorem FiledChildren.isChild {cache : VtpmCache} {root : UInt32}
    {children : HashMap Bytes (List (UInt32 × TpmtPublic))}
    (filed : FiledChildren cache root children) {pub : TpmtPublic} {bytes : Bytes}
    (encoded : parentKeyBytes pub = .ok bytes) {w : UInt32 × TpmtPublic}
    (mem : w ∈ childrenAt children bytes) : IsChild cache pub w := by
  obtain ⟨-, child, live, same, encoded'⟩ := (filed bytes w).mp mem
  exact ⟨child, bytes, live, same, encoded, encoded'⟩

/-- A handle comes with its public area throughout the search. -/
theorem public_of_descends {cache : VtpmCache} {root w : UInt32 × TpmtPublic} {key : VtpmKey}
    (rootKey : ∃ key, cache.contexts.lookup root.1 = some key ∧ key.public = root.2)
    (descends : Worklist.Descends (IsChild cache) Prod.snd root w)
    (live : cache.contexts.lookup w.1 = some key) : key.public = w.2 := by
  have own : ∃ key, cache.contexts.lookup w.1 = some key ∧ key.public = w.2 := by
    rcases Relation.ReflTransGen.cases_tail descends with rfl | ⟨v, -, child, -, live, same, -⟩
    · exact rootKey
    · exact ⟨child, live, same⟩
  obtain ⟨key', live', same⟩ := own
  rw [live] at live'
  obtain rfl := Option.some.inj live'
  exact same

/-- The search for descendants of `root`: whatever is taken descends from it, and when the search
succeeds everything that descends from it has been taken. -/
theorem removeLoop_drops {cache₀ : VtpmCache} {root : UInt32 × TpmtPublic}
    {children : HashMap Bytes (List (UInt32 × TpmtPublic))}
    (rootKey : ∃ key, cache₀.contexts.lookup root.1 = some key ∧ key.public = root.2)
    (filed : FiledChildren cache₀ root.1 children) (ancestors : List TpmtPublic)
    (deleted : List UInt32) (cache : VtpmCache) (taken : List (UInt32 × TpmtPublic))
    (same : deleted = taken.map Prod.fst)
    (drops : Drops ((root :: taken).map Prod.fst) cache₀ cache)
    (holds : Worklist.Holds (IsChild cache₀) Prod.snd root (root :: taken) ancestors) :
    ∃ taken' : List (UInt32 × TpmtPublic),
      (∀ w ∈ taken', Worklist.Descends (IsChild cache₀) Prod.snd root w) ∧
      Drops ((root :: taken').map Prod.fst) cache₀
        (Fallible.after (removeLoop children ancestors deleted cache)) ∧
      ∀ deleted' cache', removeLoop children ancestors deleted cache = .ok deleted' cache' →
        deleted' = taken'.map Prod.fst ∧
          Worklist.Holds (IsChild cache₀) Prod.snd root (root :: taken') [] := by
  induction ancestors, deleted, cache using removeLoop.induct children
    generalizing taken with
  | case1 deleted cache =>
      rw [removeLoop]
      refine ⟨taken, fun w mem => holds.descends w (List.mem_cons_of_mem _ mem), drops,
        fun deleted' cache' ok => ?_⟩
      cases ok
      exact ⟨same, holds⟩
  | case2 ancestor ancestors deleted cache e failed =>
      rw [removeLoop, failed]
      exact ⟨taken, fun w mem => holds.descends w (List.mem_cons_of_mem _ mem), drops, nofun⟩
  | case3 ancestor ancestors deleted cache bytes encoded e cache' ran =>
      obtain ⟨new, mem, dropped, -⟩ :=
        removeChildren_drops (childrenAt children bytes) deleted ancestors cache
      rw [childrenAt, ran, Fallible.after_error] at dropped
      rw [removeLoop, encoded]
      dsimp only
      rw [ran]
      refine ⟨taken ++ new, fun w isTaken => ?_, ?_, nofun⟩
      · rcases List.mem_append.mp isTaken with old | isNew
        · exact holds.descends w (List.mem_cons_of_mem _ old)
        · exact holds.descends_child (filed.isChild encoded (mem w isNew))
      · have both := drops.trans dropped
        rw [← List.map_append] at both
        exact both
  | case4 ancestor ancestors deleted cache bytes encoded deleted' ancestors' cache' ran ih =>
      obtain ⟨new, mem, dropped, done⟩ :=
        removeChildren_drops (childrenAt children bytes) deleted ancestors cache
      obtain ⟨pair, gone⟩ := done _ _ ran
      obtain ⟨rfl, rfl⟩ := Prod.mk.inj pair
      rw [childrenAt, ran, Fallible.after_ok] at dropped
      have both := drops.trans dropped
      rw [← List.map_append] at both
      have step := holds.step (.of_map _ dropped.nodup) ?fresh
        (fun v isNew => filed.isChild encoded (mem v isNew)) ?all
      case fresh =>
        intro v isNew old
        obtain ⟨key, live⟩ := dropped.live v.1 (List.mem_map_of_mem isNew)
        exact (drops.contexts_eq_some.mp live).1 (List.mem_map_of_mem old)
      case all =>
        rintro w ⟨child, bytes', live, same, encoded', filedUnder⟩
        rw [encoded] at encoded'
        obtain rfl := Except.ok.inj encoded'
        by_cases old : w.1 ∈ (root :: taken).map Prod.fst
        · obtain ⟨u, isTaken, handle⟩ := List.mem_map.mp old
          have own := public_of_descends rootKey (holds.descends u isTaken) (handle ▸ live)
          exact .inl (Prod.ext handle (own.symm.trans same) ▸ isTaken)
        · have other : w.1 ≠ root.1 := fun eq => old (eq ▸ List.mem_cons_self)
          have isFiled := (filed bytes w).mpr ⟨other, child, live, same, filedUnder⟩
          have dead := gone w isFiled
          rw [both.contexts] at dead
          have isNew : w.1 ∈ new.map Prod.fst := by
            by_contra notNew
            have stays : w.1 ∉ (root :: taken ++ new).map Prod.fst := by
              rw [List.map_append, List.mem_append, not_or]
              exact ⟨old, notNew⟩
            rw [if_neg stays, live] at dead
            cases dead
          obtain ⟨u, isNew, handle⟩ := List.mem_map.mp isNew
          obtain ⟨-, key, live', own, -⟩ := (filed bytes u).mp (mem u isNew)
          rw [handle, live] at live'
          obtain rfl := Option.some.inj live'
          exact .inr (Prod.ext handle (own.symm.trans same) ▸ isNew)
      rw [removeLoop, encoded]
      dsimp only
      rw [ran]
      exact ih (taken ++ new) (by rw [same, List.map_append]) both step

theorem run_remove (handle : TpmHandle) (cache : VtpmCache) :
    (remove handle).run cache = match cache.contexts.lookup handle.value with
      | none => .ok [] cache
      | some key =>
          match key.delete.run cache.cacheDir with
          | .error e dir => .error e (cache.withDir dir)
          | .ok () dir =>
              match (removeSubtree key.public).run ((cache.withDir dir).takeOut handle.value) with
              | .error e cache => .error e cache
              | .ok deleted cache => .ok (handle :: deleted.map .new) cache := by
  rw [remove, EStateM.run_bind, EStateM.run_get]
  dsimp only
  cases cache.contexts.lookup handle.value with
  | none => rfl
  | some key =>
      dsimp only
      rw [EStateM.run_bind, onDir_run]
      cases key.delete.run cache.cacheDir with
      | error e dir => rfl
      | ok _ dir =>
          dsimp only
          rw [EStateM.run_bind, EStateM.run_modify]
          dsimp only
          rw [EStateM.run_bind]
          cases (removeSubtree key.public).run ((cache.withDir dir).takeOut handle.value) <;> rfl

theorem run_removeSubtree (pub : TpmtPublic) (cache : VtpmCache) :
    (removeSubtree pub).run cache = match parentToChildren cache.contexts.entries ∅ with
      | .error e => .error e cache
      | .ok children => removeLoop children [pub] [] cache := by
  rw [removeSubtree, EStateM.run_bind, EStateM.run_get]
  dsimp only
  rw [EStateM.run_bind]
  cases parentToChildren cache.contexts.entries ∅ with
  | error e => rfl
  | ok children => rfl

section
variable {R : VtpmCache → VtpmCache → Prop} (refl : ∀ cache, R cache cache)
  (trans : ∀ {a b c}, R a b → R b c → R a c)
  (failed : ∀ {cache v key e dir}, cache.contexts.lookup v = some key →
    key.delete.run cache.cacheDir = .error e dir → R cache (cache.withDir dir))
  (taken : ∀ {cache v key dir}, cache.contexts.lookup v = some key →
    key.delete.run cache.cacheDir = .ok () dir → R cache ((cache.withDir dir).takeOut v))
include refl trans failed taken

theorem removeChildren_moves (children : List (UInt32 × TpmtPublic)) (deleted : List UInt32)
    (ancestors : List TpmtPublic) : Fallible.Moves R
      (removeChildren children deleted ancestors) := by
  induction children generalizing deleted ancestors with
  | nil => exact refl
  | cons child children ih =>
      intro cache
      rw [removeChildren_cons]
      split
      next => exact ih deleted ancestors cache
      next context live =>
        split
        next deletes => exact failed live deletes
        next deletes => exact trans (taken live deletes) (ih _ _ _)

theorem removeLoop_moves (children : HashMap Bytes (List (UInt32 × TpmtPublic)))
    (ancestors : List TpmtPublic) (deleted : List UInt32) (cache : VtpmCache) :
    R cache (Fallible.after (removeLoop children ancestors deleted cache)) := by
  induction ancestors, deleted, cache using removeLoop.induct children with
  | case1 deleted cache =>
      rw [removeLoop]
      exact refl cache
  | case2 ancestor ancestors deleted cache e unencoded =>
      rw [removeLoop, unencoded]
      exact refl cache
  | case3 ancestor ancestors deleted cache bytes encoded e cache' ran =>
      have moved := removeChildren_moves refl trans failed taken (childrenAt children bytes) deleted
        ancestors cache
      rw [childrenAt, ran] at moved
      rw [removeLoop, encoded]
      dsimp only
      rw [ran]
      exact moved
  | case4 ancestor ancestors deleted cache bytes encoded deleted' ancestors' cache' ran ih =>
      have moved := removeChildren_moves refl trans failed taken (childrenAt children bytes) deleted
        ancestors cache
      rw [childrenAt, ran] at moved
      rw [removeLoop, encoded]
      dsimp only
      rw [ran]
      exact trans moved ih

/-- A removal is a sequence of deletions, each of one live context. -/
theorem remove_moves (handle : TpmHandle) : Fallible.Moves R (remove handle) := by
  intro cache
  rw [run_remove]
  cases live : cache.contexts.lookup handle.value with
  | none => exact refl cache
  | some key =>
      dsimp only
      cases deletes : key.delete.run cache.cacheDir with
      | error e dir => exact failed live deletes
      | ok _ dir =>
          refine trans (taken live deletes) ?_
          dsimp only
          rw [run_removeSubtree]
          cases parentToChildren ((cache.withDir dir).takeOut handle.value).contexts.entries ∅ with
          | error e => exact refl _
          | ok children =>
              have moved := removeLoop_moves refl trans failed taken children [key.public] []
                ((cache.withDir dir).takeOut handle.value)
              dsimp only
              cases ran : removeLoop children [key.public] []
                  ((cache.withDir dir).takeOut handle.value) with
              | error e cache' =>
                  rw [ran] at moved
                  exact moved
              | ok deleted cache' =>
                  rw [ran] at moved
                  exact moved
end

/-- The children that are filed once `v` has gone. -/
theorem filedChildren_takeOut {cache : VtpmCache} {v : UInt32}
    {children : HashMap Bytes (List (UInt32 × TpmtPublic))}
    (ok : parentToChildren (cache.takeOut v).contexts.entries ∅ = .ok children) :
    FiledChildren cache v children := by
  intro bytes w
  rw [(parentToChildren_spec ok).2]
  simp only [childrenAt, AList.lookup_empty, Option.getD_none, List.not_mem_nil, false_or,
    HashMap.mem_entries, contexts_takeOut, HashMap.lookup_erase_ite]
  constructor
  · rintro ⟨entry, live, encoded, rfl⟩
    split at live
    · cases live
    next other => exact ⟨other, entry.2, live, rfl, encoded⟩
  · rintro ⟨other, child, live, own, encoded⟩
    exact ⟨⟨w.1, child⟩, by rw [if_neg other, live], encoded, Prod.ext rfl own.symm⟩

/-- Whatever a removal takes away descends from its handle; when it succeeds, it has taken away
everything that does. -/
theorem removeSubtree_drops {cache : VtpmCache} {v : UInt32} {key : VtpmKey}
    (live : cache.contexts.lookup v = some key) :
    ∃ taken : List (UInt32 × TpmtPublic),
      (∀ w ∈ taken, Worklist.Descends (IsChild cache) Prod.snd (v, key.public) w) ∧
      Drops (((v, key.public) :: taken).map Prod.fst) cache
        (Fallible.after ((removeSubtree key.public).run (cache.takeOut v))) ∧
      ∀ deleted cache', (removeSubtree key.public).run (cache.takeOut v) = .ok deleted cache' →
        deleted = taken.map Prod.fst ∧
          (∀ w child, w ≠ v → cache.contexts.lookup w = some child →
            ∃ bytes, parentKeyBytes child.parent = .ok bytes) ∧
          Worklist.Holds (IsChild cache) Prod.snd (v, key.public) ((v, key.public) :: taken)
            [] := by
  rw [run_removeSubtree]
  cases filing : parentToChildren (cache.takeOut v).contexts.entries ∅ with
  | error e => exact ⟨[], by simp, Drops.takeOut live, nofun⟩
  | ok children =>
      obtain ⟨taken, descends, drops, done⟩ := @removeLoop_drops cache (v, key.public) children
        ⟨key, live, rfl⟩ (filedChildren_takeOut filing) [key.public] [] (cache.takeOut v) [] rfl
        (.takeOut live) (.start _)
      refine ⟨taken, descends, drops, fun deleted cache' ok => ?_⟩
      obtain ⟨same, holds⟩ := done deleted cache' ok
      refine ⟨same, fun w child other live' => ?_, holds⟩
      refine (parentToChildren_spec filing).1 ⟨w, child⟩ (HashMap.mem_entries.mpr ?_)
      rw [contexts_takeOut, HashMap.lookup_erase_ite, if_neg other, live']

/-- The descendants of a live context, without their public areas. -/
theorem descends_iff {cache : VtpmCache} {v : UInt32} {key : VtpmKey}
    (live : cache.contexts.lookup v = some key) {w : UInt32} {key' : VtpmKey}
    (live' : cache.contexts.lookup w = some key') :
    Worklist.Descends (IsChild cache) Prod.snd (v, key.public) (w, key'.public) ↔
      Relation.ReflTransGen cache.ChildOf v w := by
  constructor
  · suffices handles : ∀ u, Worklist.Descends (IsChild cache) Prod.snd (v, key.public) u →
        Relation.ReflTransGen cache.ChildOf v u.1 from fun descends => handles _ descends
    intro u descends
    induction descends with
    | refl => exact .refl
    | @tail t u descends child ih =>
        obtain ⟨childKey, bytes, childLive, -, encoded, encoded'⟩ := child
        have own : ∃ parent, cache.contexts.lookup t.1 = some parent ∧ parent.public = t.2 := by
          rcases Relation.ReflTransGen.cases_tail descends with rfl |
            ⟨s, -, parent, -, live, same, -⟩
          · exact ⟨key, live, rfl⟩
          · exact ⟨parent, live, same⟩
        obtain ⟨parent, parentLive, same⟩ := own
        exact ih.tail ⟨parent, childKey, bytes, parentLive, childLive, same ▸ encoded, encoded'⟩
  · intro reaches
    induction reaches generalizing key' with
    | refl =>
        rw [live] at live'
        obtain rfl := Option.some.inj live'
        exact .refl
    | tail _ child ih =>
        obtain ⟨parent, childKey, bytes, parentLive, childLive, encoded, encoded'⟩ := child
        rw [live'] at childLive
        obtain rfl := Option.some.inj childLive
        exact (ih parentLive).tail ⟨key', bytes, live', rfl, encoded, encoded'⟩

theorem live_of_reaches {cache : VtpmCache} {v w : UInt32} {key : VtpmKey}
    (live : cache.contexts.lookup v = some key)
    (reaches : Relation.ReflTransGen cache.ChildOf v w) :
    ∃ key, cache.contexts.lookup w = some key := by
  rcases Relation.ReflTransGen.cases_tail reaches with rfl | ⟨u, -, -, child, -, -, live, -⟩
  · exact ⟨key, live⟩
  · exact ⟨child, live⟩

/-- A removal, however it ends, takes away some contexts that descend from its handle. -/
theorem remove_drops (handle : TpmHandle) (cache : VtpmCache) :
    ∃ gone : List UInt32, Drops gone cache (Fallible.after ((remove handle).run cache)) ∧
      ∀ w ∈ gone, Relation.ReflTransGen cache.ChildOf handle.value w := by
  rw [run_remove]
  cases live : cache.contexts.lookup handle.value with
  | none => exact ⟨[], .refl cache, by simp⟩
  | some key =>
      dsimp only
      cases key.delete.run cache.cacheDir with
      | error e dir => exact ⟨[], (Drops.refl cache).withDir dir, by simp⟩
      | ok _ dir =>
          have live' : (cache.withDir dir).contexts.lookup handle.value = some key := live
          obtain ⟨taken, descends, drops, -⟩ := removeSubtree_drops live'
          have all : ∀ w ∈ ((handle.value, key.public) :: taken).map Prod.fst,
              Relation.ReflTransGen cache.ChildOf handle.value w := by
            intro w mem
            obtain ⟨u, isTaken, rfl⟩ := List.mem_map.mp mem
            rcases List.mem_cons.mp isTaken with rfl | isTaken
            · exact .refl
            · obtain ⟨key', own⟩ := drops.live u.1 mem
              have same := public_of_descends ⟨key, live', rfl⟩ (descends u isTaken) own
              exact (descends_iff live' own).mp (same ▸ descends u isTaken)
          refine ⟨_, ((Drops.refl cache).withDir dir).trans ?_, all⟩
          dsimp only
          cases ran : (removeSubtree key.public).run ((cache.withDir dir).takeOut handle.value) with
          | error e cache' =>
              rw [ran] at drops
              exact drops
          | ok deleted cache' =>
              rw [ran] at drops
              exact drops

/-- A removal that succeeds takes away exactly the descendants of its handle, and returns them with
the handle in front; it has seen that all other contexts can encode their parents. -/
theorem remove_ok {handle : TpmHandle} {cache cache' : VtpmCache} {handles : List TpmHandle}
    {key : VtpmKey} (live : cache.contexts.lookup handle.value = some key)
    (ok : (remove handle).run cache = .ok handles cache') :
    ∃ gone : List UInt32, handles = handle :: gone.map .new ∧
      Drops (handle.value :: gone) cache cache' ∧
      (∀ w, w ∈ handle.value :: gone ↔ Relation.ReflTransGen cache.ChildOf handle.value w) ∧
      ∀ w child, w ≠ handle.value → cache.contexts.lookup w = some child →
        ∃ bytes, parentKeyBytes child.parent = .ok bytes := by
  rw [run_remove, live] at ok
  dsimp only at ok
  split at ok
  · cases ok
  next dir deletes =>
    split at ok
    · cases ok
    next deleted cache'' ran =>
      cases ok
      have live' : (cache.withDir dir).contexts.lookup handle.value = some key := live
      obtain ⟨taken, descends, drops, done⟩ := removeSubtree_drops live'
      rw [ran] at drops
      obtain ⟨rfl, encodes, holds⟩ := done deleted cache' ran
      refine ⟨taken.map Prod.fst, rfl, ((Drops.refl cache).withDir dir).trans drops,
        fun w => ⟨fun mem => ?_, fun reaches => ?_⟩, encodes⟩
      · rw [← List.map_cons (a := (handle.value, key.public)) (f := Prod.fst)] at mem
        obtain ⟨u, isTaken, rfl⟩ := List.mem_map.mp mem
        obtain ⟨key', own⟩ := drops.live u.1 mem
        have descends := holds.mem_iff.mp isTaken
        have same := public_of_descends ⟨key, live', rfl⟩ descends own
        exact (descends_iff live' own).mp (same ▸ descends)
      · obtain ⟨key', own⟩ := live_of_reaches live reaches
        have descends := (descends_iff live' own).mpr reaches
        exact List.mem_map_of_mem (f := Prod.fst) (holds.mem_iff.mpr descends)

end VtpmCache
end Tpm2
