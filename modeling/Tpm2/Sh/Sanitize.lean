import Tpm2.Sh.Task
import Tpm2.Vtpm.Cascade

/-! Sanitizing the cache: which contexts the two passes drop, and what the device has answered. -/

namespace Tpm2

open ByteCodec

namespace VtpmCache

/-- Contexts that descend from `handles` have gone and nothing else; where no file operation fails,
all of `handles` have. -/
structure Removes (handles : List UInt32) (cache cache' : VtpmCache) : Prop where
  kept : ∀ {v key}, cache'.contexts.lookup v = some key → cache.contexts.lookup v = some key
  lost : ∀ {v key}, cache.contexts.lookup v = some key → cache'.contexts.lookup v = none →
    ∃ u ∈ handles, Relation.ReflTransGen cache.ChildOf u v
  healthy : cache.cacheDir.Healthy → cache'.cacheDir.Healthy
  gone : cache.cacheDir.Healthy → ∀ u ∈ handles, cache'.contexts.lookup u = none

namespace Removes

variable {handles handles' : List UInt32} {a b c cache : VtpmCache}

theorem of_same (contexts : b.contexts = a.contexts) (cacheDir : b.cacheDir = a.cacheDir) :
    Removes [] a b where
  kept live := contexts ▸ live
  lost live dead := by
    rw [contexts, live] at dead
    cases dead
  healthy healthy := cacheDir ▸ healthy
  gone _ := by simp

theorem refl (cache : VtpmCache) : Removes [] cache cache := of_same rfl rfl

theorem childOf (removes : Removes handles a b) {v w : UInt32} : b.ChildOf v w → a.ChildOf v w := by
  rintro ⟨parent, child, bytes, parentLive, childLive, encoded⟩
  exact ⟨parent, child, bytes, removes.kept parentLive, removes.kept childLive, encoded⟩

theorem trans (first : Removes handles a b) (second : Removes handles' b c) :
    Removes (handles ++ handles') a c where
  kept live := first.kept (second.kept live)
  lost {v key} live dead := by
    cases between : b.contexts.lookup v with
    | none =>
        obtain ⟨u, mem, reaches⟩ := first.lost live between
        exact ⟨u, List.mem_append_left _ mem, reaches⟩
    | some key' =>
        obtain ⟨u, mem, reaches⟩ := second.lost between dead
        exact ⟨u, List.mem_append_right _ mem,
          Relation.ReflTransGen.mono (fun _ _ => first.childOf) _ _ reaches⟩
  healthy := second.healthy ∘ first.healthy
  gone healthy u mem := by
    rcases List.mem_append.mp mem with mem | mem
    · have dead := first.gone healthy u mem
      by_contra live
      obtain ⟨key, live⟩ := Option.ne_none_iff_exists'.mp live
      rw [second.kept live] at dead
      cases dead
    · exact second.gone (first.healthy healthy) u mem

end Removes

/-- A removal, however it ends, removes its handle and descendants of it. -/
theorem remove_removes (handle : TpmHandle) (cache : VtpmCache) :
    Removes [handle.value] cache (Fallible.after ((remove handle).run cache)) := by
  obtain ⟨gone, drops, reaches⟩ := remove_drops handle cache
  refine ⟨fun live => (drops.contexts_eq_some.mp live).2, fun {v key} live dead => ?_,
    remove_healthy handle cache, fun healthy u mem => ?_⟩
  · refine ⟨handle.value, List.mem_singleton_self _, reaches v ?_⟩
    by_contra other
    rw [drops.contexts, if_neg other, live] at dead
    cases dead
  · rw [List.mem_singleton.mp mem]
    exact remove_gone healthy handle

end VtpmCache

/-- The device says that the object does not exist, that its context is stale, or that it has
another name. -/
def Answer.Disowns : Answer → Prop
  | .renamed | .stale => True
  | .failed (.tpmRc rc) => IsStaleCode rc
  | .valid | .failed _ => False

/-- The keys that the device did not find valid. -/
def denied (asked : List (UInt32 × Answer)) : List UInt32 :=
  (asked.filter fun entry => entry.2 ≠ .valid).map Prod.fst

theorem mem_denied {asked : List (UInt32 × Answer)} {v : UInt32} :
    v ∈ denied asked ↔ ∃ answer, (v, answer) ∈ asked ∧ answer ≠ .valid := by
  simp [denied]

theorem denied_append (asked asked' : List (UInt32 × Answer)) :
    denied (asked ++ asked') = denied asked ++ denied asked' := by
  simp [denied]

namespace TaskState

open VtpmCache (Removes)

variable {asked asked' : List (UInt32 × Answer)} {a b c s : TaskState}

/-- The device has been asked about live keys with the answers `asked`, and those that it did not
find valid are removed. -/
structure Sanitized (asked : List (UInt32 × Answer)) (s s' : TaskState) : Prop where
  answers : s'.answers = s.answers ++ asked
  live : ∀ u answer, (u, answer) ∈ asked → ∃ key, s.cache.contexts.lookup u = some key
  removes : Removes (denied asked) s.cache s'.cache

theorem Sanitized.refl (s : TaskState) : Sanitized [] s s := ⟨by simp, by simp, .refl _⟩

theorem Sanitized.trans (first : Sanitized asked a b) (second : Sanitized asked' b c) :
    Sanitized (asked ++ asked') a c where
  answers := by rw [second.answers, first.answers, List.append_assoc]
  live u answer mem := by
    rcases List.mem_append.mp mem with mem | mem
    · exact first.live u answer mem
    · obtain ⟨key, live⟩ := second.live u answer mem
      exact ⟨key, first.removes.kept live⟩
  removes := denied_append asked asked' ▸ first.removes.trans second.removes

theorem after_removeEntry (handle : TpmHandle) (s : TaskState) :
    Fallible.after ((removeEntry handle).run s) =
      { s with cache := Fallible.after ((VtpmCache.remove handle).run s.cache) } := by
  rw [removeEntry, EStateM.run_bind, onCache, EStateM.run_adaptExcept, Fallible.run_part]
  cases (VtpmCache.remove handle).run s.cache <;> rfl

theorem run_validateEntry (crypto : Libcrypto) (vhandle : TpmHandle) (s : TaskState) :
    (validateEntry crypto vhandle).run s = match s.cache.findByHandle vhandle with
      | none => .ok () s
      | some key =>
          match (TpmDevice.readPublic vhandle).run s.device with
          | .ok (_, nameOnTpm) device =>
              match tpmMakeName crypto key.public with
              | .error e => .error (.crypto e) { s with device }
              | .ok cachedName =>
                  if cachedName ≠ nameOnTpm then
                    (removeEntry vhandle).run
                      (TaskState.note { s with device } vhandle.value .renamed)
                  else
                    .ok () (TaskState.note { s with device } vhandle.value .valid)
          | .error e device =>
              (removeEntry vhandle).run
                (TaskState.note { s with device } vhandle.value (.failed e)) := by
  rw [validateEntry, EStateM.run_bind, EStateM.run_get]
  dsimp only
  cases s.cache.findByHandle vhandle with
  | none => rfl
  | some key =>
      dsimp only
      rw [EStateM.run_bind, Fallible.run_outcome, onDevice_run]
      cases (TpmDevice.readPublic vhandle).run s.device with
      | error e device => rfl
      | ok answer device =>
          dsimp only
          rw [EStateM.run_bind]
          cases tpmMakeName crypto key.public with
          | error e => rfl
          | ok cachedName =>
              dsimp only [Except.mapError]
              rw [Fallible.run_ofExcept_ok]
              dsimp only
              split <;> rfl

/-- The removal that an answer leads to. -/
theorem sanitized_removeEntry (handle : TpmHandle) (device : TpmDevice) {answer : Answer}
    (invalid : answer ≠ .valid) {key : VtpmKey}
    (live : s.cache.contexts.lookup handle.value = some key) :
    Sanitized [(handle.value, answer)] s (Fallible.after ((removeEntry handle).run
      (TaskState.note { s with device } handle.value answer))) := by
  rw [after_removeEntry]
  refine ⟨rfl, fun u other mem => ?_, ?_⟩
  · obtain ⟨rfl, -⟩ := Prod.mk.inj (List.mem_singleton.mp mem)
    exact ⟨key, live⟩
  · have only : denied [(handle.value, answer)] = [handle.value] := by simp [denied, invalid]
    exact only ▸ VtpmCache.remove_removes handle s.cache

theorem sanitized_valid (v : UInt32) (device : TpmDevice) {key : VtpmKey}
    (live : s.cache.contexts.lookup v = some key) :
    Sanitized [(v, .valid)] s (TaskState.note { s with device } v .valid) := by
  refine ⟨rfl, fun u other mem => ?_, .refl _⟩
  obtain ⟨rfl, -⟩ := Prod.mk.inj (List.mem_singleton.mp mem)
  exact ⟨key, live⟩

theorem validateEntry_sanitized (crypto : Libcrypto) (vhandle : TpmHandle) (s : TaskState) :
    ∃ asked, Sanitized asked s (Fallible.after ((validateEntry crypto vhandle).run s)) := by
  rw [run_validateEntry]
  cases found : s.cache.findByHandle vhandle with
  | none => exact ⟨[], .refl s⟩
  | some key =>
      dsimp only
      cases (TpmDevice.readPublic vhandle).run s.device with
      | error e device => exact ⟨_, sanitized_removeEntry vhandle device (by simp) found⟩
      | ok answer device =>
          dsimp only
          cases tpmMakeName crypto key.public with
          | error e => exact ⟨[], rfl.trans (List.append_nil _).symm, by simp, .refl _⟩
          | ok cachedName =>
              dsimp only
              split
              · exact ⟨_, sanitized_removeEntry vhandle device (by simp) found⟩
              · exact ⟨_, sanitized_valid vhandle.value device found⟩

theorem validateEntries_sanitized (crypto : Libcrypto) (vhandles : List TpmHandle) :
    Fallible.Moves (fun s s' => ∃ asked, Sanitized asked s s')
      (validateEntries crypto vhandles) := by
  have refl (s : TaskState) : ∃ asked, Sanitized asked s s := ⟨[], .refl s⟩
  have trans {a b c : TaskState} : (∃ asked, Sanitized asked a b) → (∃ asked, Sanitized asked b c) →
      ∃ asked, Sanitized asked a c := fun ⟨_, first⟩ ⟨_, second⟩ => ⟨_, first.trans second⟩
  induction vhandles with
  | nil => exact .pure refl ()
  | cons vhandle vhandles ih =>
      exact .bind trans (validateEntry_sanitized crypto vhandle) fun _ => ih

/-- The device has been asked about live keys with the answers `asked`; `handles` are those that it
did not find valid, and the contexts are as they were. -/
structure Asked (asked : List (UInt32 × Answer)) (handles : List UInt32) (s s' : TaskState) :
    Prop where
  answers : s'.answers = s.answers ++ asked
  handles : handles = denied asked
  live : ∀ u answer, (u, answer) ∈ asked → ∃ key, s.cache.contexts.lookup u = some key
  contexts : s'.cache.contexts = s.cache.contexts
  cacheDir : s'.cache.cacheDir = s.cache.cacheDir

theorem Asked.refl (s : TaskState) : Asked [] [] s s := ⟨by simp, rfl, by simp, rfl, rfl⟩

theorem Asked.trans {handles handles' : List UInt32} (first : Asked asked handles a b)
    (second : Asked asked' handles' b c) : Asked (asked ++ asked') (handles ++ handles') a c where
  answers := by rw [second.answers, first.answers, List.append_assoc]
  handles := by rw [first.handles, second.handles, denied_append]
  live u answer mem := by
    rcases List.mem_append.mp mem with mem | mem
    · exact first.live u answer mem
    · obtain ⟨key, live⟩ := second.live u answer mem
      exact ⟨key, first.contexts ▸ live⟩
  contexts := second.contexts.trans first.contexts
  cacheDir := second.cacheDir.trans first.cacheDir

/-- One answer, about a live key. -/
theorem Asked.single {v : UInt32} {key : VtpmKey} {s' : TaskState} (answer : Answer)
    (live : s.cache.contexts.lookup v = some key)
    (answers : s'.answers = s.answers ++ [(v, answer)])
    (contexts : s'.cache.contexts = s.cache.contexts)
      (cacheDir : s'.cache.cacheDir = s.cache.cacheDir) :
    Asked [(v, answer)] (denied [(v, answer)]) s s' := by
  refine ⟨answers, rfl, fun u other mem => ?_, contexts, cacheDir⟩
  obtain ⟨rfl, -⟩ := Prod.mk.inj (List.mem_singleton.mp mem)
  exact ⟨key, live⟩

theorem refreshEntry_asked (vhandle : UInt32) (firstError : Option TaskError)
    (handles : List UInt32) (s : TaskState) : ∃ asked new firstError' s',
      (refreshEntry vhandle firstError handles).run s = .ok (firstError', handles ++ new) s' ∧
        Asked asked new s s' := by
  unfold refreshEntry
  split
  next => exact ⟨[], [], firstError, s, by rw [List.append_nil]; rfl, .refl s⟩
  next =>
    rw [EStateM.run_bind, EStateM.run_get]
    dsimp only
    cases found : s.cache.findByHandle (.new vhandle) with
    | none => exact ⟨[], [], firstError, s, by rw [List.append_nil]; rfl, .refl s⟩
    | some key =>
        have live : s.cache.contexts.lookup vhandle = some key := TpmInt.value_new vhandle ▸ found
        dsimp only
        rw [EStateM.run_bind, Fallible.run_outcome, onDevice_run]
        cases (refreshKey key.context).run s.device with
        | error e device => exact ⟨_, _, _, _, rfl, .single (.failed e) live rfl rfl rfl⟩
        | ok valid device =>
            cases valid with
            | false => exact ⟨_, _, _, _, rfl, .single .stale live rfl rfl rfl⟩
            | true =>
                refine ⟨[(vhandle, .valid)], [], firstError, _, by rw [List.append_nil]; rfl, ?_⟩
                exact .single .valid live rfl rfl rfl

theorem refreshEntries_asked (vhandles : List UInt32) (firstError : Option TaskError)
    (handles : List UInt32) (s : TaskState) : ∃ asked new firstError' s',
      (refreshEntries vhandles firstError handles).run s = .ok (firstError', handles ++ new) s' ∧
        Asked asked new s s' := by
  induction vhandles generalizing firstError handles s with
  | nil => exact ⟨[], [], firstError, s, by rw [List.append_nil]; rfl, .refl s⟩
  | cons vhandle vhandles ih =>
      obtain ⟨asked, new, firstError', s', ran, first⟩ :=
        refreshEntry_asked vhandle firstError handles s
      obtain ⟨asked', new', firstError'', s'', rest, second⟩ := ih firstError' (handles ++ new) s'
      refine ⟨_, _, firstError'', s'', ?_, first.trans second⟩
      rw [refreshEntries, EStateM.run_bind, ran]
      dsimp only
      rw [rest, List.append_assoc]

theorem removeEntries_removes (vhandles : List UInt32) (firstError : Option TaskError)
    (s : TaskState) : ∃ firstError' s',
      (removeEntries vhandles firstError).run s = .ok firstError' s' ∧ s'.answers = s.answers ∧
        Removes vhandles s.cache s'.cache := by
  induction vhandles generalizing firstError s with
  | nil => exact ⟨firstError, s, rfl, rfl, .refl _⟩
  | cons vhandle vhandles ih =>
      have removes := VtpmCache.remove_removes (.new vhandle) s.cache
      rw [TpmInt.value_new] at removes
      have after := after_removeEntry (.new vhandle) s
      rw [removeEntries, EStateM.run_bind, Fallible.run_outcome]
      cases ran : (removeEntry (.new vhandle)).run s with
      | ok _ s' =>
          rw [ran, Fallible.after_ok] at after
          subst after
          obtain ⟨firstError', s', rest, answers, second⟩ := ih firstError _
          exact ⟨firstError', s', rest, answers, removes.trans second⟩
      | error e s' =>
          rw [ran, Fallible.after_error] at after
          subst after
          obtain ⟨firstError', s', rest, answers, second⟩ := ih (firstError.or (some e)) _
          exact ⟨firstError', s', rest, answers, removes.trans second⟩

theorem refreshCache_sanitized (s : TaskState) :
    ∃ asked, Sanitized asked s (Fallible.after (refreshCache.run s)) := by
  obtain ⟨asked, new, firstError, s', ran, pass⟩ :=
    refreshEntries_asked s.cache.contexts.keys none [] s
  obtain ⟨firstError', s'', ran', answers, removes⟩ := removeEntries_removes new firstError s'
  have sanitized : Sanitized asked s s'' := by
    refine ⟨answers.trans pass.answers, pass.live, ?_⟩
    rw [← pass.handles, ← List.nil_append new]
    exact (Removes.of_same pass.contexts pass.cacheDir).trans removes
  refine ⟨asked, ?_⟩
  rw [refreshCache, EStateM.run_bind, EStateM.run_get]
  dsimp only
  rw [EStateM.run_bind, ran]
  dsimp only
  rw [EStateM.run_bind, List.nil_append, ran']
  dsimp only
  cases firstError' <;> exact sanitized

/-- The passes over the cache that ask the device about its keys. -/
inductive Sanitizer
  | validatePersistentHandles
  | refreshCache

def sanitize (crypto : Libcrypto) : Sanitizer → Fallible TaskError TaskState Unit
  | .validatePersistentHandles => validatePersistentHandles crypto
  | .refreshCache => refreshCache

theorem sanitize_sanitized (crypto : Libcrypto) (sanitizer : Sanitizer) (s : TaskState) :
    ∃ asked, Sanitized asked s (Fallible.after ((sanitize crypto sanitizer).run s)) := by
  cases sanitizer with
  | validatePersistentHandles => exact validateEntries_sanitized crypto _ s
  | refreshCache => exact refreshCache_sanitized s

/-- The device has disowned the key of `v` or one that it descends from. -/
def Disowned (asked : List (UInt32 × Answer)) (cache : VtpmCache) (v : UInt32) : Prop :=
  ∃ u answer, (u, answer) ∈ asked ∧ answer.Disowns ∧ Relation.ReflTransGen cache.ChildOf u v

/-- Every context that is missing in `s'` was disowned. -/
def DropsDisowned (asked : List (UInt32 × Answer)) (s s' : TaskState) : Prop :=
  ∀ v key, s.cache.contexts.lookup v = some key → s'.cache.contexts.lookup v = none →
    Disowned asked s.cache v

/-- A pass over the cache drops only disowned contexts if each key for which the device gave another
answer is disowned through an ancestor. Without file errors this is also necessary. -/
theorem sanitize_dropsDisowned (crypto : Libcrypto) (sanitizer : Sanitizer) (s : TaskState) :
    ∃ asked, (Fallible.after ((sanitize crypto sanitizer).run s)).answers = s.answers ++ asked ∧
      ((∀ u answer, (u, answer) ∈ asked → answer = .valid ∨ Disowned asked s.cache u) →
        DropsDisowned asked s (Fallible.after ((sanitize crypto sanitizer).run s))) ∧
      (s.cache.cacheDir.Healthy →
        DropsDisowned asked s (Fallible.after ((sanitize crypto sanitizer).run s)) →
          ∀ u answer, (u, answer) ∈ asked → answer = .valid ∨ Disowned asked s.cache u) := by
  obtain ⟨asked, sanitized⟩ := sanitize_sanitized crypto sanitizer s
  refine ⟨asked, sanitized.answers, fun disowned v key live dead => ?_,
    fun healthy drops u answer mem => ?_⟩
  · obtain ⟨u, isDenied, reaches⟩ := sanitized.removes.lost live dead
    obtain ⟨answer, mem, invalid⟩ := mem_denied.mp isDenied
    obtain ⟨w, answer', mem', disowns, above⟩ := (disowned u answer mem).resolve_left invalid
    exact ⟨w, answer', mem', disowns, above.trans reaches⟩
  · by_cases valid : answer = .valid
    · exact .inl valid
    · obtain ⟨key, live⟩ := sanitized.live u answer mem
      exact .inr (drops u key live
        (sanitized.removes.gone healthy u (mem_denied.mpr ⟨answer, mem, valid⟩)))

/-- A timeout is enough to drop a key. -/
theorem sanitize_dropsDisowned_fails : ¬ ∀ crypto sanitizer s asked,
    (Fallible.after ((sanitize crypto sanitizer).run s)).answers = s.answers ++ asked →
      DropsDisowned asked s (Fallible.after ((sanitize crypto sanitizer).run s)) := by
  intro claim
  let cache := VtpmCache.emptyCache.perform VtpmCache.sampleCrypto (.save 1 VtpmCache.noParent)
  let pass := (sanitize VtpmCache.sampleCrypto .refreshCache).run
    (sampleTask cache fun _ => .recvFails .timeout)
  have answers : (Fallible.after pass).answers = [(0x80000000, .failed .timeout)] := by
    decide +kernel
  have gone : (Fallible.after pass).cache.contexts.lookup 0x80000000 = none := by decide +kernel
  have live : (cache.contexts.lookup 0x80000000).isSome := by decide +kernel
  obtain ⟨key, live⟩ := Option.isSome_iff_exists.mp live
  have drops : DropsDisowned _ _ (Fallible.after pass) := claim _ .refreshCache _ _ answers
  obtain ⟨u, answer, mem, disowns, -⟩ := drops _ key live gone
  obtain ⟨-, rfl⟩ := Prod.mk.inj (List.mem_singleton.mp mem)
  exact disowns

end TaskState
end Tpm2
