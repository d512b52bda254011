import Tpm2.Crypto.TemplateText
import Tpm2.PolicyLanguage.Parse
import Tpm2.Sh.Shell
import Tpm2.Vtpm.Cache

/-! What several commands do: they read authentication values, attributes and policies. -/

namespace Tpm2

open ByteCodec Text Checked

def parseHandleTarget (s : List Char) : Checked AuthError TpmHandle :=
  if s = "owner".toList then
    return .new (TpmEnum.value TpmRh.owner)
  else if s = "platform".toList then
    return .new (TpmEnum.value TpmRh.platform)
  else if s = "endorsement".toList then
    return .new (TpmEnum.value TpmRh.endorsement)
  else if s = "null".toList then
    return .new (TpmEnum.value TpmRh.null)
  else if s = "lockout".toList then
    return .new (TpmEnum.value TpmRh.lockout)
  else do
    let handle ← ExceptT.adapt .handle (Handle.fromStr s)
    let value ← result (handle.requireValue.mapError fun _ => .handlePattern)
    return .new value

/-- Parses an authentication entry in the format `<handle>:<value>`. -/
def parseAuth (hex : Hex) (s : List Char) : Checked AuthError (TpmHandle × Auth) :=
  match splitOnce ':' s with
  | none => throw .format
  | some (handleStr, authStr) => do
      let handle ← parseHandleTarget (trim handleStr)
      match hex.decode (trim authStr) with
      | none => throw .hex
      | some bytes => return (handle, .password bytes)

/-- The loop of `buildAuthMap` over the entries of the environment variable. -/
def readAuthEntries (hex : Hex) : List (List Char) → HashMap TpmHandle Auth →
    Checked (List Char × AuthError) (HashMap TpmHandle Auth)
  | [], map => return map
  | s :: entries, map =>
      if (trim s).isEmpty then
        readAuthEntries hex entries map
      else do
        let (handle, auth) ← ExceptT.adapt (s, ·) (parseAuth hex s)
        readAuthEntries hex entries (map.insert handle auth)

/-- Builds a map of handle-specific authorizations, from the value of `TPM2SH_AUTH` and from
entries. -/
def buildAuthMap (hex : Hex) (envStr : Option (List Char))
    (authEntries : List (TpmHandle × Auth)) :
    Checked (List Char × AuthError) (HashMap TpmHandle Auth) := do
  let map ←
    match envStr with
    | none => pure ∅
    | some value => readAuthEntries hex (value.splitOn ',') ∅
  return map.extend authEntries

/-- Parses a password into a TPM authorization value. -/
def parsePassword {E : Type} (hex : Hex) (password : Option (List Char)) :
    Except (CommandError E) Tpm2bAuth :=
  match password with
  | none => .ok .new
  | some hexStr =>
      match hex.decode hexStr with
      | none => .error .passwordNotHex
      | some bytes => (TpmBuffer.tryFrom bytes).mapError fun _ => .capacityExceeded

/-- The attributes for the authorization of an object. -/
def parseAuthAttributes (password policyExpression : Option (List Char)) (lock : Bool) :
    TpmaObject :=
  (if lock then .empty else .noDa) |||
    (if password.isSome || policyExpression.isNone then .userWithAuth else .empty) |||
    (if policyExpression.isSome then .adminWithPolicy else .empty)

/-- Creates object attributes for `TPM2_Create` and `TPM2_CreatePrimary`. -/
def parseCreationAttributes (password policyExpression : Option (List Char)) (lock : Bool)
    (alg : TpmPublicTemplate) : TpmaObject :=
  .fixedTpm ||| .fixedParent ||| .sensitiveDataOrigin |||
    parseAuthAttributes password policyExpression lock ||| alg.usageAttributes

/-- Creates object attributes for `TPM2_Import`. -/
def parseImportAttributes (password policyExpression : Option (List Char)) (lock : Bool)
    (alg : TpmPublicTemplate) : TpmaObject :=
  parseAuthAttributes password policyExpression lock ||| alg.usageAttributes

/-- The loop of `fetchPersistentNames`: a handle whose public area cannot be read has no name. -/
def persistentNames : List TpmHandle → HashMap TpmHandle Tpm2bName →
    Fallible TpmDeviceError TpmDevice (HashMap TpmHandle Tpm2bName)
  | [], map => return map
  | h :: handles, map => do
      match ← Fallible.outcome (TpmDevice.readPublic h) with
      | .ok (_, name) => persistentNames handles (map.insert h name)
      | .error _ => persistentNames handles map

/-- Fetches the mapping of persistent handles to their names from the device. -/
def fetchPersistentNames : Fallible TpmDeviceError TpmDevice (HashMap TpmHandle Tpm2bName) := do
  let handles ← TpmDevice.fetchHandles .persistent
  persistentNames handles ∅

/-- The loop of `fetchHandleNames` over the cached keys. -/
def cachedNames (crypto : Libcrypto) : List (Sigma fun _ : UInt32 => VtpmKey) →
    HashMap TpmHandle Tpm2bName → Except TpmCryptoError (HashMap TpmHandle Tpm2bName)
  | [], map => .ok map
  | ⟨vhandle, key⟩ :: keys, map => do
      let name ← tpmMakeName crypto key.public
      cachedNames crypto keys (map.insert (.new vhandle) name)

/-- Fetches a map of all available names (virtual and persistent). -/
def fetchHandleNames {E : Type} (crypto : Libcrypto) :
    Fallible (CommandError E) Shell (HashMap TpmHandle Tpm2bName) := do
  let map ← Shell.onDevice fetchPersistentNames
  let keys := (← get).task.cache.contexts.entries
  Shell.result (fun e => .task (.crypto e)) (cachedNames crypto keys map)

/-- Resolves the policy expression, if there is one, into a policy digest and a list of commands.
The loop that reads the PCRs has `rounds` rounds. -/
def buildPolicyCommandList (libs : Libraries) (policyExpression : Option (List Char))
    (nameAlg : TpmAlgId) (rounds : Nat) :
    Fallible (CommandError libs.rasn.Asn1Error) Shell (Tpm2bDigest × TpmCommandList) := do
  match policyExpression with
  | none => return (.new, [])
  | some expression => do
      let read ← Shell.onTaskWith .pcr (TaskState.onDevice (readAllPcrs rounds))
      let pcrs ← Shell.finished read
      let names ← fetchHandleNames libs.crypto
      let policyContext ← Shell.result .policy (TpmPolicyContext.new names pcrs)
      let ast ← Shell.result .policy
        (TpmPolicyExpression.parse libs.hex policyContext (String.ofList expression))
      let compiled ← Shell.result .policy (ast.compile libs.crypto nameAlg policyContext)
      return (compiled.digest, compiled.commands)

/-- The entries of the environment variable: those that are not blank. -/
def envEntries (envStr : Option (List Char)) : List (List Char) :=
  (envStr.elim [] fun value => value.splitOn ',').filter fun s => !(trim s).isEmpty

section
variable (hex : Hex)

/-- The entry is read from the text. -/
def ReadsAuth (s : List Char) (entry : TpmHandle × Auth) : Prop :=
  Returns (parseAuth hex s) (.ok entry)

/-- All entries of a text are read. -/
abbrev ReadsAll (entries : List (List Char)) (read : List (TpmHandle × Auth)) : Prop :=
  List.Forall₂ (ReadsAuth hex) entries read

/-- The first malformed entry, of which the map is not built. -/
def FailsAt (entries : List (List Char)) (s : List Char) (e : AuthError) : Prop :=
  ∃ before behind read, entries = before ++ s :: behind ∧ ReadsAll hex before read ∧
    Returns (parseAuth hex s) (.error e)

theorem parseHandleTarget_returns (s : List Char) :
    ∃ value, Returns (parseHandleTarget s) value := by
  unfold parseHandleTarget
  split
  · exact ⟨_, .pure _⟩
  split
  · exact ⟨_, .pure _⟩
  split
  · exact ⟨_, .pure _⟩
  split
  · exact ⟨_, .pure _⟩
  split
  · exact ⟨_, .pure _⟩
  obtain ⟨parsed, returns⟩ := Handle.fromStr_returns s
  have adapted : Returns (ExceptT.adapt AuthError.handle (Handle.fromStr s))
      (parsed.mapError .handle) := by
    rw [Returns, ExceptT.run_adapt, returns]
    rfl
  exact ⟨_, adapted.bind fun handle _ => (Returns.of_result _).bind fun value _ => .pure _⟩

/-- Reading an entry does not panic. -/
theorem parseAuth_returns (s : List Char) : ∃ value, Returns (parseAuth hex s) value := by
  unfold parseAuth
  cases splitOnce ':' s with
  | none => exact ⟨_, .throw _⟩
  | some parts =>
      obtain ⟨handleStr, authStr⟩ := parts
      obtain ⟨target, returns⟩ := parseHandleTarget_returns (trim handleStr)
      dsimp only
      cases hex.decode (trim authStr) with
      | none => exact ⟨_, returns.bind fun _ _ => .throw _⟩
      | some bytes => exact ⟨_, returns.bind fun _ _ => .pure _⟩

/-- The entries of the variable are all read, or the first malformed one is reported. -/
theorem readAuthEntries_returns (entries : List (List Char)) (map : HashMap TpmHandle Auth) :
    (∃ read, ReadsAll hex (entries.filter fun s => !(trim s).isEmpty) read ∧
      Returns (readAuthEntries hex entries map) (.ok (map.extend read))) ∨
    ∃ s e, FailsAt hex (entries.filter fun s => !(trim s).isEmpty) s e ∧
      Returns (readAuthEntries hex entries map) (.error (s, e)) := by
  induction entries generalizing map with
  | nil => exact .inl ⟨[], .nil, .pure _⟩
  | cons s entries ih =>
      unfold readAuthEntries
      cases blank : (trim s).isEmpty with
      | true =>
          rw [List.filter_cons_of_neg (by simp [blank]), if_pos rfl]
          exact ih map
      | false =>
          rw [List.filter_cons_of_pos (by simp [blank]), if_neg (by simp)]
          obtain ⟨value, returns⟩ := parseAuth_returns hex s
          have adapted : Returns (ExceptT.adapt (fun e => (s, e)) (parseAuth hex s))
              (value.mapError fun e => (s, e)) := by
            rw [Returns, ExceptT.run_adapt, returns]
            rfl
          cases value with
          | error e =>
              refine .inr ⟨s, e, ⟨[], _, [], rfl, .nil, returns⟩, ?_⟩
              exact adapted.bind (g := fun _ => .error (s, e)) fun _ absurd => by cases absurd
          | ok entry =>
              rcases ih (map.insert entry.1 entry.2) with
                ⟨read, all, ends⟩ | ⟨s', e, ⟨before, behind, read, split, all, malformed⟩, ends⟩
              · refine .inl ⟨entry :: read, .cons returns all, ?_⟩
                exact adapted.bind (g := fun _ => .ok _) fun _ same => by
                  cases same
                  exact ends
              · refine .inr ⟨s', e, ⟨s :: before, behind, entry :: read, by rw [split]; rfl,
                  .cons returns all, malformed⟩, ?_⟩
                exact adapted.bind (g := fun _ => .error _) fun _ same => by
                  cases same
                  exact ends

/-- The map has for each handle the last authorization of the variable and of the entries, where the
entries come behind the variable, or else the first malformed entry of the variable is reported. -/
theorem buildAuthMap_returns (envStr : Option (List Char))
    (authEntries : List (TpmHandle × Auth)) :
    (∃ read map, ReadsAll hex (envEntries envStr) read ∧
      Returns (buildAuthMap hex envStr authEntries) (.ok map) ∧
      ∀ handle, map.lookup handle = HashMap.lastOf (read ++ authEntries) handle) ∨
    ∃ s e, FailsAt hex (envEntries envStr) s e ∧
      Returns (buildAuthMap hex envStr authEntries) (.error (s, e)) := by
  have looked (read : List (TpmHandle × Auth)) (handle : TpmHandle) :
      ((HashMap.extend ∅ read).extend authEntries).lookup handle =
        HashMap.lastOf (read ++ authEntries) handle := by
    have joined : (HashMap.extend ∅ read).extend authEntries =
        HashMap.extend ∅ (read ++ authEntries) := by
      simp only [HashMap.extend, List.foldl_append]
    rw [joined, HashMap.lookup_extend, AList.lookup_empty, Option.or_none]
  cases envStr with
  | none => exact .inl ⟨[], _, .nil, .pure _, looked []⟩
  | some value =>
      rcases readAuthEntries_returns hex (value.splitOn ',') ∅ with
        ⟨read, all, returns⟩ | ⟨s, e, fails, returns⟩
      · refine .inl ⟨read, _, all, ?_, looked read⟩
        exact returns.bind (g := fun map => .ok (map.extend authEntries)) fun _ _ => .pure _
      · refine .inr ⟨s, e, fails, ?_⟩
        exact returns.bind (g := fun _ => .error (s, e)) fun _ absurd => by cases absurd

end

/-- The attributes of a new object have the usage of its template. -/
theorem usage_attributes (password policyExpression : Option (List Char)) (lock : Bool)
    (t : TpmPublicTemplate) :
    parseCreationAttributes password policyExpression lock t &&& .usage = t.usageAttributes ∧
      parseImportAttributes password policyExpression lock t &&& .usage = t.usageAttributes := by
  have unused : parseAuthAttributes password policyExpression lock &&& .usage = .empty := by
    unfold parseAuthAttributes
    cases lock <;> cases password.isSome || policyExpression.isNone <;>
      cases policyExpression.isSome <;> rfl
  have own : t.usageAttributes &&& .usage = t.usageAttributes := TpmaObject.and_and_self _ _
  constructor
  · rw [parseCreationAttributes, TpmaObject.or_and, TpmaObject.or_and, unused, own]
    exact TpmaObject.empty_or _
  · rw [parseImportAttributes, TpmaObject.or_and, unused, own]
    exact TpmaObject.empty_or _

/-- The text of a created object, whatever its unique field is, is a name of the algorithm that it
was created with, unless that is one of RSA without a key size. -/
theorem created_text_iff {s : List Char} {t : TpmPublicTemplate} {pub : TpmtPublic}
    {unique : TpmuPublicId} (accepted : TpmPublicTemplate.fromStr s = .ok t)
    (password policyExpression : Option (List Char)) (lock : Bool) (authPolicy : Tpm2bDigest)
    (converted : resolvePublicTemplate t
      (parseCreationAttributes password policyExpression lock t) authPolicy = .ok pub)
    (fits : publicObjectType unique pub.parameters = .ok pub.objectType) :
    (∃ shown text, TpmPublicTemplate.ofPublic { pub with unique } = .ok shown ∧
      shown.toText = .ok text ∧ TpmPublicTemplate.fromStr text = .ok t) ↔ t.Sized := by
  obtain ⟨alg, named⟩ := TpmPublicTemplate.nameAlg_of_fromStr accepted
  obtain ⟨usage, -⟩ := usage_attributes password policyExpression lock t
  obtain ⟨shown, made, alike⟩ := TpmPublicTemplate.alike_ofPublic named converted usage fits
  rw [← TpmPublicTemplate.toText_iff accepted]
  constructor
  · rintro ⟨shown', text, made', written, read⟩
    obtain rfl := Except.ok.inj (made.symm.trans made')
    exact ⟨text, alike.toText.symm.trans written, read⟩
  · rintro ⟨text, written, read⟩
    exact ⟨shown, text, made, alike.toText.trans written, read⟩

/-- The template of `rsa-2048:sha256:rsassa`. -/
def rsassaTemplate : TpmPublicTemplate where
  objectType := .rsa
  nameAlg := .sha256
  authPolicy := .new
  objectAttributes := .signEncrypt
  symmetric := .null
  publicId := .rsa .new
  publicParms := .rsa ⟨.null, ⟨.rsassa, .hash ⟨.sha256⟩⟩, .new 2048, .new 0⟩
  matched := rfl

theorem created_text_rsassa : ∃ pub, resolvePublicTemplate rsassaTemplate
    (parseCreationAttributes none none false rsassaTemplate) .new = .ok pub ∧
      ((∃ shown text, TpmPublicTemplate.ofPublic { pub with unique := .rsa .new } = .ok shown ∧
        shown.toText = .ok text ∧ TpmPublicTemplate.fromStr text = .ok rsassaTemplate) ↔
          rsassaTemplate.Sized) :=
  ⟨_, rfl, created_text_iff (s := "rsa-2048:sha256:rsassa".toList) rfl none none false .new rfl rfl⟩

end Tpm2
