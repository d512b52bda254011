import Tpm2.Vtpm.Run

/-! What a chain of ancestors is: each live context in it is the parent of the next, up to a primary
key or a handle that is registered under the name of the last parent. -/

namespace Tpm2

open ByteCodec

namespace VtpmCache

/-- Both handles are live, and the first has the parent area of the second as its public area. -/
def Parents (cache : VtpmCache) (parent child : TpmHandle) : Prop :=
  ∃ parentKey childKey, cache.findByHandle parent = some parentKey ∧
    cache.findByHandle child = some childKey ∧ parentKey.public = childKey.parent

/-- A way down through live contexts that ends at `target`. -/
structure PathTo (cache : VtpmCache) (target : TpmHandle) (path : List TpmHandle) : Prop where
  last : path.getLast? = some target
  linked : path.IsChain cache.Parents

/-- The way down starts at a primary key. -/
def StartsAtPrimary (cache : VtpmCache) (chain : List TpmHandle) : Prop :=
  ∃ first key, chain.head? = some first ∧ cache.findByHandle first = some key ∧
    key.parent.objectType = .null

/-- The chain is a handle `root` and a way down, and `root` is registered under the name of the
parent area that the way down starts from; no live context has that area as its public one. -/
def StartsAtRegistered (crypto : Libcrypto) (cache : VtpmCache) (root : TpmHandle)
    (name : Tpm2bName) (path : List TpmHandle) : Prop :=
  ∃ first key, path.head? = some first ∧ cache.findByHandle first = some key ∧
    key.parent.objectType ≠ .null ∧ tpmMakeName crypto key.parent = .ok name ∧
    cache.handles.lookup name = some root ∧
    ∀ v other, cache.contexts.lookup v = some other → other.public ≠ key.parent

variable {crypto : Libcrypto} {supplied : HashMap Tpm2bName TpmHandle} {dir : Directory}
  {cache : VtpmCache} {target : TpmHandle} {chain : List TpmHandle}

/-- A way down grows by the parent of its first handle. -/
theorem PathTo.cons {current parent : TpmHandle} {path : List TpmHandle}
    (down : cache.PathTo target (current :: path)) (parents : cache.Parents parent current) :
    cache.PathTo target (parent :: current :: path) :=
  ⟨by rw [List.getLast?_cons_cons, down.last], .cons_cons parents down.linked⟩

/-- The loop extends the way down from `current` until it finds where it starts. -/
theorem fetchLoop_spec {fuel : Nat} {current : TpmHandle} {path : List TpmHandle}
    (down : cache.PathTo target (current :: path))
    (ok : fetchLoop crypto cache fuel current path = some (.ok chain)) :
    (cache.PathTo target chain ∧ cache.StartsAtPrimary chain) ∨
      ∃ root name path', chain = root :: path' ∧ cache.PathTo target path' ∧
        StartsAtRegistered crypto cache root name path' := by
  induction fuel generalizing current path with
  | zero => cases ok
  | succ fuel ih =>
      rw [fetchLoop] at ok
      cases found : cache.findByHandle current with
      | none => rw [found] at ok; cases ok
      | some key =>
          rw [found] at ok
          dsimp only at ok
          split at ok
          next primary =>
            cases ok
            exact .inl ⟨down, current, key, rfl, found, primary⟩
          next type =>
            cases up : cache.contexts.entries.find? fun entry => entry.2.public = key.parent with
            | some parent =>
                rw [up] at ok
                have live : cache.findByHandle (.new parent.1) = some parent.2 := by
                  rw [findByHandle, TpmInt.value_new]
                  exact HashMap.mem_entries.mp (List.mem_of_find?_eq_some up)
                have same : parent.2.public = key.parent := by simpa using List.find?_some up
                exact ih (down.cons ⟨parent.2, key, live, found, same⟩) ok
            | none =>
                rw [up] at ok
                dsimp only at ok
                cases named : tpmMakeName crypto key.parent with
                | error e => rw [named] at ok; cases ok
                | ok name =>
                    rw [named] at ok
                    dsimp only at ok
                    cases registered : cache.handles.lookup name with
                    | none => rw [registered] at ok; cases ok
                    | some root =>
                        rw [registered] at ok
                        cases ok
                        refine .inr ⟨root, name, _, rfl, down, current, key, rfl, found, type,
                          named,
                          registered, fun v other live same => ?_⟩
                        have entry : (⟨v, other⟩ : Sigma fun _ : UInt32 => VtpmKey) ∈
                            cache.contexts.entries := HashMap.mem_entries.mpr live
                        simpa [same] using List.find?_eq_none.mp up _ entry

/-- Different areas, public and parent ones of live contexts, have different names. -/
def NamesApart (crypto : Libcrypto) (cache : VtpmCache) : Prop :=
  ∀ v key w child name, cache.contexts.lookup v = some key → cache.contexts.lookup w = some child →
    tpmMakeName crypto key.public = .ok name → tpmMakeName crypto child.parent = .ok name →
      key.public = child.parent

/-- A registered start is a handle that was supplied to the cache when names do not collide. -/
theorem Run.supplied_of_startsAtRegistered {Meets : VtpmCache → Op → Prop}
    (run : Run crypto supplied dir Meets cache) (apart : NamesApart crypto cache)
    {root : TpmHandle} {name : Tpm2bName} {path : List TpmHandle}
    (starts : StartsAtRegistered crypto cache root name path) :
    supplied.lookup name = some root := by
  obtain ⟨first, key, -, found, -, named, registered, free⟩ := starts
  have consistent := run.consistent
  rcases consistent.backed name root.value (lookup_handles.mpr registered) with entry | published
  · obtain ⟨handle, found, same⟩ := Option.map_eq_some_iff.mp entry
    rw [found, ← TpmInt.new_value handle, same, TpmInt.new_value]
  · obtain ⟨other, live, computed⟩ := consistent.name_iff.mp published
    exact absurd (apart _ _ _ _ name live found computed named) (free _ _ live)

/-- Ancestor chains are right. In every reachable cache whose names do not collide, a chain that is
found is a persistent handle that is registered, alone; or a way down through live contexts, from
parent to child, that ends at the requested one and starts at a primary key; or such a way down
behind the handle that was supplied under the name of the parent it starts from, which is no live
context's public area. -/
theorem fetchAncestors_chain (run : Run crypto supplied dir AnyOp cache)
    (apart : NamesApart crypto cache) (fuel : Nat) (target : TpmHandle) (chain : List TpmHandle)
    (ok : cache.fetchAncestors crypto fuel target = some (.ok chain)) :
    (IsPersistent target.value ∧ target ∈ cache.handles.values ∧ chain = [target]) ∨
    (cache.PathTo target chain ∧ cache.StartsAtPrimary chain) ∨
    ∃ root name path, chain = root :: path ∧ cache.PathTo target path ∧
      StartsAtRegistered crypto cache root name path ∧ supplied.lookup name = some root := by
  unfold fetchAncestors at ok
  split at ok
  next registered =>
    cases ok
    exact .inl ⟨registered.1, registered.2, rfl⟩
  next =>
    have own : cache.PathTo target [target] := ⟨rfl, .singleton target⟩
    refine .inr ((fetchLoop_spec own ok).imp_right ?_)
    rintro ⟨root, name, path, rfl, down, starts⟩
    exact ⟨root, name, path, rfl, down, starts, run.supplied_of_startsAtRegistered apart starts⟩

/-- A primary key and its child. -/
def familyCache : VtpmCache :=
  (emptyCache.perform sampleCrypto (.save 1 noParent)).perform sampleCrypto
    (.save 2 (samplePublic 1))

theorem fetchAncestors_chain_family :
    familyCache.PathTo (.new 0x80000001) [.new 0x80000000, .new 0x80000001] ∧
      familyCache.StartsAtPrimary [.new 0x80000000, .new 0x80000001] := by
  have run : Run sampleCrypto ∅ emptyDir AnyOp familyCache :=
    .step _ (.step _ (emptyCache_run sampleCrypto AnyOp) trivial) trivial
  have apart : NamesApart sampleCrypto familyCache := by
    have listed : ∀ e ∈ familyCache.contexts.entries, ∀ e' ∈ familyCache.contexts.entries,
        tpmMakeName sampleCrypto e.2.public = tpmMakeName sampleCrypto e'.2.parent →
          e.2.public = e'.2.parent := by
      decide +kernel
    intro v key w child name live live' named named'
    exact listed ⟨v, key⟩ (HashMap.mem_entries.mpr live) ⟨w, child⟩
      (HashMap.mem_entries.mpr live') (named.trans named'.symm)
  have ok : familyCache.fetchAncestors sampleCrypto 3 (.new 0x80000001) =
      some (.ok [.new 0x80000000, .new 0x80000001]) := by
    decide +kernel
  rcases fetchAncestors_chain run apart 3 _ _ ok with ⟨persistent, -⟩ | right |
    ⟨_, name, _, -, -, -, found⟩
  · exact absurd persistent (by decide)
  · exact right
  · exact absurd found (by rw [AList.lookup_empty]; nofun)

end VtpmCache
end Tpm2
