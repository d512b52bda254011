import Tpm2.Crypto.External

/-! Key templates as texts: the name of the algorithm of a template, or of the public area of an
object, is one that the template can be parsed from again. -/

namespace Tpm2

open ByteCodec Text

namespace TpmaObject

def fixedTpm : TpmaObject := ⟨0x00000002⟩
def fixedParent : TpmaObject := ⟨0x00000010⟩
def sensitiveDataOrigin : TpmaObject := ⟨0x00000020⟩
def userWithAuth : TpmaObject := ⟨0x00000040⟩
def adminWithPolicy : TpmaObject := ⟨0x00000080⟩
def noDa : TpmaObject := ⟨0x00000400⟩

instance : AndOp TpmaObject := ⟨fun a b => ⟨a.bits &&& b.bits⟩⟩

/-- The bits for the usage of an object. -/
def usage : TpmaObject := decrypt ||| signEncrypt ||| restricted

theorem or_and (a b mask : TpmaObject) : (a ||| b) &&& mask = (a &&& mask) ||| (b &&& mask) :=
  congrArg mk (UInt32.toBitVec_inj.mp BitVec.and_or_distrib_right)

theorem and_and_self (a mask : TpmaObject) : a &&& mask &&& mask = a &&& mask :=
  congrArg mk (UInt32.toBitVec_inj.mp ((BitVec.and_assoc _ _ _).trans
    (congrArg _ (BitVec.and_self))))

theorem empty_or (a : TpmaObject) : empty ||| a = a := congrArg mk (UInt32.zero_or)

end TpmaObject

namespace TpmPublicTemplate

/-- Returns the usage bits implied by the algorithm string. -/
def usageAttributes (self : TpmPublicTemplate) : TpmaObject := self.objectAttributes &&& .usage

/-- `TryFrom<&TpmtPublic>`. -/
def ofPublic («public» : TpmtPublic) : Except TpmCryptoError TpmPublicTemplate := do
  let nameAlg ← TpmHash.tryFrom «public».nameAlg
  let symmetric : TpmtSymDefObject :=
    match «public».parameters with
    | .rsa parms => parms.symmetric
    | .ecc parms => parms.symmetric
    | .symCipher parms => parms.sym
    | _ => .null
  let template ← new.withPublic «public».unique «public».parameters
  return (((template.withNameAlg nameAlg).withObjectAttributes
    «public».objectAttributes).withAuthPolicy «public».authPolicy).withSymmetric symmetric

def schemeName (scheme : TpmAlgId) : Except TpmCryptoError (List Char) :=
  orInvalid ((schemeNames.find? fun entry => entry.2 = scheme).map Prod.fst)

def formatAsym (kind selector nameAlgStr : List Char) (template : TpmPublicTemplate) :
    Except TpmCryptoError (List Char) :=
  if template.isStorageParent then
    .ok (kind ++ '-' :: selector ++ ':' :: nameAlgStr)
  else do
    let scheme ← orInvalid template.scheme
    let schemeStr ← schemeName scheme
    return kind ++ '-' :: selector ++ ':' :: nameAlgStr ++ ':' :: schemeStr

/-- `TryFrom<&TpmPublicTemplate> for String`. -/
def toText (template : TpmPublicTemplate) : Except ExternalKeyError (List Char) := do
  let nameAlg ← (TpmHash.tryFrom template.nameAlg).mapError .crypto
  let nameAlgStr := nameAlg.display
  match template.publicParms with
  | .rsa parms =>
      if parms.keyBits.value = 0 then
        throw (.invalidKeyBits 0)
      else
        let bits := Nat.toDigits 10 parms.keyBits.value.toNat
        (formatAsym "rsa".toList bits nameAlgStr template).mapError .crypto
  | .ecc parms => do
      let curve ← TpmEllipticCurve.tryFrom parms.curveId
      (formatAsym "ecc".toList curve.display nameAlgStr template).mapError .crypto
  | .keyedHash parms =>
      match parms.scheme.scheme with
      | .null => return "keyedhash-null:".toList ++ nameAlgStr
      | .xor => return "keyedhash-xor:".toList ++ nameAlgStr
      | .hmac => return "keyedhash-hmac:".toList ++ nameAlgStr
      | _ => throw (.crypto .invalidObjectType)
  | _ => throw (.crypto .invalidObjectType)

/-- The end of the name of a key with a scheme. -/
def schemeSuffix : Option (List Char) → List Char
  | none => []
  | some schemeStr => ':' :: schemeStr

/-- What `parseAsym` makes of the parts of a name. -/
def asymOf (allowed : TpmAlgId → Bool) (unique : TpmuPublicId)
    (parms : TpmAlgId → TpmuAsymScheme → TpmuPublicParms) (nameAlg : TpmHash)
    (schemeStr : Option (List Char)) : Except TpmCryptoError TpmPublicTemplate := do
  let (scheme, usage) ← parseAsymForm schemeStr
  if allowed scheme then
    let (scheme, details) ← asymScheme scheme nameAlg.toAlgId
    let template ← new.withPublic unique (parms scheme details)
    return (template.withNameAlg nameAlg).withObjectAttributes usage
  else
    throw .invalidObjectType

/-- A scheme that is parsed has the name that it is parsed from. -/
theorem parseScheme_eq_ok {s : List Char} {scheme : TpmAlgId} :
    parseScheme s = .ok scheme ↔ (s, scheme) ∈ schemeNames := by
  have distinct : ∀ entry ∈ schemeNames,
      (schemeNames.find? fun other => other.1 = entry.1) = some entry := by decide
  rw [parseScheme, orInvalid_eq_ok, Option.map_eq_some_iff]
  constructor
  · rintro ⟨entry, found, rfl⟩
    have named := List.find?_some found
    obtain rfl : entry.1 = s := of_decide_eq_true named
    exact List.mem_of_find?_eq_some found
  · intro mem
    exact ⟨_, distinct _ mem, rfl⟩

theorem schemeName_of_mem {s : List Char} {scheme : TpmAlgId} (mem : (s, scheme) ∈ schemeNames) :
    schemeName scheme = .ok s := by
  have distinct : ∀ entry ∈ schemeNames,
      (schemeNames.find? fun other => other.2 = entry.2) = some entry := by decide
  rw [schemeName, distinct _ mem]
  rfl

/-- The name of a scheme is not empty, and it has no colon. -/
theorem plain_of_mem {s : List Char} {scheme : TpmAlgId} (mem : (s, scheme) ∈ schemeNames) :
    s.isEmpty = false ∧ s.elem ':' = false := by
  have plain : ∀ entry ∈ schemeNames, entry.1.isEmpty = false ∧ entry.1.elem ':' = false := by
    decide
  exact plain _ mem

theorem colon_notMem_display (alg : TpmHash) : ':' ∉ alg.display := by
  cases alg <;> decide

/-- The name of a hash and that of a scheme are told apart again. -/
theorem splitNameAndScheme_append {nameAlg : TpmHash} {schemeStr : Option (List Char)}
    {form : TpmAlgId × TpmaObject} (ok : parseAsymForm schemeStr = .ok form) :
    splitNameAndScheme (nameAlg.display ++ schemeSuffix schemeStr) =
      .ok (nameAlg.display, schemeStr) := by
  unfold splitNameAndScheme
  cases schemeStr with
  | none =>
      have none : splitOnce ':' (nameAlg.display ++ []) = none := by cases nameAlg <;> rfl
      rw [schemeSuffix, none, List.append_nil]
  | some s =>
      obtain ⟨scheme, parsed, -⟩ := bind_eq_ok.mp ok
      obtain ⟨nonempty, plain⟩ := plain_of_mem (parseScheme_eq_ok.mp parsed)
      have named : nameAlg.display.isEmpty = false := by cases nameAlg <;> rfl
      rw [schemeSuffix, splitOnce_eq_some.mpr ⟨rfl, colon_notMem_display nameAlg⟩]
      dsimp only
      rw [named, nonempty, plain]
      rfl

section
variable {σ : Type} {select : List Char → Option σ} {allowed : TpmAlgId → Bool}
  {unique : TpmuPublicId} {parms : σ → TpmAlgId → TpmuAsymScheme → TpmuPublicParms}
  {t : TpmPublicTemplate}

/-- A name that is accepted has the parts that the template is made of. -/
theorem parts_of_parseAsym {suffix : List Char}
    (ok : parseAsym select allowed unique parms suffix = .ok t) :
    ∃ selectorStr selector nameAlg schemeStr, select selectorStr = some selector ∧
      asymOf allowed unique (parms selector) nameAlg schemeStr = .ok t := by
  obtain ⟨⟨selectorStr, rest⟩, -, ok⟩ := bind_eq_ok.mp ok
  obtain ⟨⟨nameAlgStr, schemeStr⟩, -, ok⟩ := bind_eq_ok.mp ok
  obtain ⟨selector, selected, ok⟩ := bind_eq_ok.mp ok
  obtain ⟨nameAlg, -, ok⟩ := bind_eq_ok.mp ok
  exact ⟨selectorStr, selector, nameAlg, schemeStr, orInvalid_eq_ok.mp selected, ok⟩

/-- A name that is made of its parts is accepted. -/
theorem parseAsym_of_parts {selectorStr : List Char} {selector : σ} {nameAlg : TpmHash}
    {schemeStr : Option (List Char)} (selected : select selectorStr = some selector)
    (plain : ':' ∉ selectorStr)
    (ok : asymOf allowed unique (parms selector) nameAlg schemeStr = .ok t) :
    parseAsym select allowed unique parms
      (selectorStr ++ ':' :: (nameAlg.display ++ schemeSuffix schemeStr)) = .ok t := by
  obtain ⟨form, formed, -⟩ := bind_eq_ok.mp ok
  refine bind_eq_ok.mpr ⟨(selectorStr, _), orInvalid_eq_ok.mpr (splitOnce_eq_some.mpr
    ⟨rfl, plain⟩), bind_eq_ok.mpr ⟨_, splitNameAndScheme_append formed, ?_⟩⟩
  refine bind_eq_ok.mpr ⟨selector, orInvalid_eq_ok.mpr selected, bind_eq_ok.mpr ⟨nameAlg, ?_, ok⟩⟩
  exact orInvalid_eq_ok.mpr (TpmHash.fromStr_eq_some.mpr rfl)

end

/-- A key with a scheme: its scheme, and the bits for its usage. -/
inductive AsymForm : Option (List Char) → TpmAlgId → TpmaObject → Prop
  | storageParent : AsymForm none .null (.decrypt ||| .restricted)
  | scheme {s : List Char} {scheme : TpmAlgId} {usage : TpmaObject} :
      (s, scheme) ∈ schemeNames → usage ∈ [.signEncrypt ||| .decrypt, .signEncrypt, .decrypt] →
        AsymForm (some s) scheme usage

theorem asymForm_of_parse {schemeStr : Option (List Char)} {scheme : TpmAlgId} {usage : TpmaObject}
    (ok : parseAsymForm schemeStr = .ok (scheme, usage)) : AsymForm schemeStr scheme usage := by
  cases schemeStr with
  | none =>
      cases ok
      exact .storageParent
  | some s =>
      obtain ⟨scheme', parsed, ok⟩ := bind_eq_ok.mp ok
      have mem := parseScheme_eq_ok.mp parsed
      split at ok
      · cases ok
        exact .scheme mem (by simp)
      split at ok
      · cases ok
        exact .scheme mem (by simp)
      split at ok
      · cases ok
        exact .scheme mem (by simp)
      · cases ok

/-- What a template is that is made of the parts of a name. -/
theorem asymOf_eq_ok {allowed : TpmAlgId → Bool} {unique : TpmuPublicId}
    {parms : TpmAlgId → TpmuAsymScheme → TpmuPublicParms} {nameAlg : TpmHash}
    {schemeStr : Option (List Char)} {t : TpmPublicTemplate}
    (ok : asymOf allowed unique parms nameAlg schemeStr = .ok t) :
    ∃ scheme details, AsymForm schemeStr scheme t.objectAttributes ∧
      t.nameAlg = nameAlg.toAlgId ∧ t.publicId = unique ∧ t.publicParms = parms scheme details := by
  obtain ⟨⟨scheme, usage⟩, formed, ok⟩ := bind_eq_ok.mp ok
  dsimp only at ok
  split at ok
  · obtain ⟨⟨scheme', details⟩, filled, ok⟩ := bind_eq_ok.mp ok
    obtain ⟨template, sets, ok⟩ := bind_eq_ok.mp ok
    obtain rfl : scheme = scheme' := by
      unfold asymScheme at filled
      split at filled <;> cases filled <;> rfl
    rw [withPublic] at sets
    split at sets
    · cases sets
      cases ok
      exact ⟨scheme, details, asymForm_of_parse formed, rfl, rfl, rfl⟩
    · cases sets
  · cases ok

/-- The text of a key with a scheme is made of the parts of its name. -/
theorem formatAsym_of_form {kind selector nameAlgStr : List Char} {t : TpmPublicTemplate}
    {schemeStr : Option (List Char)} {scheme : TpmAlgId}
    (form : AsymForm schemeStr scheme t.objectAttributes) (schemed : t.scheme = some scheme)
    (asym : t.objectType = .rsa ∨ t.objectType = .ecc) :
    formatAsym kind selector nameAlgStr t =
      .ok (kind ++ '-' :: (selector ++ ':' :: (nameAlgStr ++ schemeSuffix schemeStr))) := by
  generalize attributes : t.objectAttributes = usage at form
  cases form with
  | storageParent =>
      have parent : t.isStorageParent = true := by
        rw [isStorageParent, schemed, attributes, decide_eq_true asym]
        rfl
      rw [formatAsym, if_pos parent]
      simp [schemeSuffix]
  | @scheme s _ _ mem listed =>
      have without : ∀ bits ∈ [TpmaObject.signEncrypt ||| .decrypt, .signEncrypt, .decrypt],
          bits.contains .restricted = false := by decide
      have unrestricted := without usage listed
      have plain : t.isStorageParent = false := by
        rw [isStorageParent, attributes, unrestricted, Bool.and_false, Bool.false_and]
      rw [formatAsym, if_neg (by simp [plain]), schemed]
      show (do let schemeStr ← schemeName scheme; _) = _
      rw [schemeName_of_mem mem]
      simp [schemeSuffix, bind, Except.bind, pure, Except.pure]

/-- Two templates that differ in what the text does not show. -/
structure Alike (t shown : TpmPublicTemplate) : Prop where
  objectType : shown.objectType = t.objectType
  nameAlg : shown.nameAlg = t.nameAlg
  usage : shown.usageAttributes = t.usageAttributes
  parms : ∃ symmetric, shown.publicParms = t.publicParms.withSymmetric symmetric

section
variable {t shown : TpmPublicTemplate}

theorem Alike.contains (alike : Alike t shown) {bit : TpmaObject}
    (inUsage : TpmaObject.usage.bits &&& bit.bits = bit.bits) :
    shown.objectAttributes.contains bit = t.objectAttributes.contains bit := by
  have usage : shown.objectAttributes.bits &&& TpmaObject.usage.bits =
      t.objectAttributes.bits &&& TpmaObject.usage.bits := congrArg TpmaObject.bits alike.usage
  rw [TpmaObject.contains, TpmaObject.contains, ← inUsage, ← UInt32.and_assoc, usage,
    UInt32.and_assoc]

theorem Alike.scheme (alike : Alike t shown) : shown.scheme = t.scheme := by
  obtain ⟨symmetric, parms⟩ := alike.parms
  rw [TpmPublicTemplate.scheme, TpmPublicTemplate.scheme, parms]
  cases t.publicParms <;> rfl

theorem Alike.formatAsym (alike : Alike t shown) (kind selector nameAlgStr : List Char) :
    TpmPublicTemplate.formatAsym kind selector nameAlgStr shown =
      TpmPublicTemplate.formatAsym kind selector nameAlgStr t := by
  have parent : shown.isStorageParent = t.isStorageParent := by
    rw [isStorageParent, isStorageParent, alike.objectType, alike.scheme,
      alike.contains (by decide), alike.contains (by decide)]
  rw [TpmPublicTemplate.formatAsym, TpmPublicTemplate.formatAsym, parent, alike.scheme]

/-- Alike templates have the same text. -/
theorem Alike.toText (alike : Alike t shown) : shown.toText = t.toText := by
  obtain ⟨symmetric, parms⟩ := alike.parms
  unfold TpmPublicTemplate.toText
  rw [alike.nameAlg, parms]
  cases t.publicParms with
  | rsa p | ecc p =>
      simp only [TpmuPublicParms.withSymmetric, alike.formatAsym]
  | _ => rfl

end

theorem fromStr_rsa (rest : List Char) : fromStr ("rsa-".toList ++ rest) = parseRsa rest := rfl
theorem fromStr_ecc (rest : List Char) : fromStr ("ecc-".toList ++ rest) = parseEcc rest := rfl

/-- A key size has to be there for the text to be written. -/
def Sized (t : TpmPublicTemplate) : Prop :=
  ∀ parms, t.publicParms = .rsa parms → parms.keyBits.value ≠ 0

theorem toText_rsa {rest : List Char} {t : TpmPublicTemplate} (ok : parseRsa rest = .ok t) :
    (∃ text, t.toText = .ok text ∧ fromStr text = .ok t) ↔ t.Sized := by
  obtain ⟨selectorStr, keyBits, nameAlg, schemeStr, selected, made⟩ := parts_of_parseAsym ok
  obtain ⟨scheme, details, form, named, unique, parms⟩ := asymOf_eq_ok made
  obtain ⟨digits, -, -, -, small⟩ := fromStrRadix_eq_some.mp selected
  have value : (UInt16.ofNat keyBits).toNat = keyBits := UInt16.toNat_ofNat_of_lt' small
  have asym : t.objectType = .rsa := by
    have matched := t.matched
    rw [unique, parms] at matched
    exact (Except.ok.inj matched).symm
  have schemed : t.scheme = some scheme := by rw [TpmPublicTemplate.scheme, parms]
  have hash : TpmHash.tryFrom t.nameAlg = .ok nameAlg := TpmHash.tryFrom_eq_ok.mpr named
  constructor
  · rintro ⟨text, shown, -⟩ parms' same
    intro zero
    rw [toText, hash, same] at shown
    dsimp only [Except.mapError, bind, Except.bind] at shown
    rw [if_pos zero] at shown
    cases shown
  · intro sized
    have positive := sized _ parms
    refine ⟨"rsa".toList ++ '-' :: (Nat.toDigits 10 keyBits ++
      ':' :: (nameAlg.display ++ schemeSuffix schemeStr)), ?_, ?_⟩
    · rw [toText, hash, parms]
      dsimp only [Except.mapError, bind, Except.bind]
      rw [if_neg positive, formatAsym_of_form form schemed (.inl asym), TpmInt.value_new,
        value]
    · show fromStr ("rsa-".toList ++ _) = _
      rw [fromStr_rsa]
      refine parseAsym_of_parts ?_ ?_ made
      · exact fromStrRadix_of_ofDigits (Nat.toDigits_ne_nil) (ofDigits_toDigits (by decide)
          (by decide) keyBits) small
      · intro mem
        have digit := digits_of_ofDigits (ofDigits_toDigits (show 1 < 10 by decide) (by decide)
          keyBits) _ mem
        cases digit

theorem toText_ecc {rest : List Char} {t : TpmPublicTemplate} (ok : parseEcc rest = .ok t) :
    (∃ text, t.toText = .ok text ∧ fromStr text = .ok t) ∧ t.Sized := by
  obtain ⟨selectorStr, curve, nameAlg, schemeStr, selected, made⟩ := parts_of_parseAsym ok
  obtain ⟨scheme, details, form, named, unique, parms⟩ := asymOf_eq_ok made
  have asym : t.objectType = .ecc := by
    have matched := t.matched
    rw [unique, parms] at matched
    exact (Except.ok.inj matched).symm
  have schemed : t.scheme = some scheme := by rw [TpmPublicTemplate.scheme, parms]
  have hash : TpmHash.tryFrom t.nameAlg = .ok nameAlg := TpmHash.tryFrom_eq_ok.mpr named
  have known : TpmEllipticCurve.tryFrom curve.toEccCurve = .ok curve := by cases curve <;> rfl
  refine ⟨⟨"ecc".toList ++ '-' :: (curve.display ++
    ':' :: (nameAlg.display ++ schemeSuffix schemeStr)), ?_, ?_⟩, ?_⟩
  · rw [toText, hash, parms]
    dsimp only [Except.mapError, bind, Except.bind]
    rw [known]
    dsimp only
    rw [formatAsym_of_form form schemed (.inr asym)]
  · show fromStr ("ecc-".toList ++ _) = _
    rw [fromStr_ecc]
    exact parseAsym_of_parts (by cases curve <;> rfl) (by cases curve <;> decide) made
  · intro parms' same
    rw [parms] at same
    cases same

/-- What the name of a keyed hash begins with. -/
def keyedhashNames : List (TpmAlgId × List Char) :=
  [(.null, "keyedhash-null:".toList), (.xor, "keyedhash-xor:".toList),
    (.hmac, "keyedhash-hmac:".toList)]

theorem toText_keyedhash {rest front : List Char} {scheme : TpmAlgId} {t : TpmPublicTemplate}
    (named : (scheme, front) ∈ keyedhashNames) (ok : parseKeyedhash rest scheme = .ok t) :
    (∃ text, t.toText = .ok text ∧ fromStr text = .ok t) ∧ t.Sized := by
  have accepted : fromStr (front ++ rest) = .ok t := by
    rcases List.mem_cons.mp named with ⟨rfl, rfl⟩ | named
    · exact ok
    rcases List.mem_cons.mp named with ⟨rfl, rfl⟩ | named
    · exact ok
    · obtain ⟨rfl, rfl⟩ := List.mem_singleton.mp named
      exact ok
  obtain ⟨nameAlg, found, ok⟩ := bind_eq_ok.mp ok
  obtain ⟨details, -, ok⟩ := bind_eq_ok.mp ok
  obtain ⟨template, sets, ok⟩ := bind_eq_ok.mp ok
  obtain ⟨parms, hash⟩ : t.publicParms = .keyedHash ⟨⟨scheme, details⟩⟩ ∧
      t.nameAlg = nameAlg.toAlgId := by
    obtain ⟨parms, -⟩ := publicParms_of_withPublic sets
    cases ok
    exact ⟨parms, rfl⟩
  have shown := TpmHash.fromStr_eq_some.mp (orInvalid_eq_ok.mp found)
  refine ⟨⟨_, ?_, accepted⟩, ?_⟩
  · rw [toText, TpmHash.tryFrom_eq_ok.mpr hash, parms, shown]
    rcases List.mem_cons.mp named with ⟨rfl, rfl⟩ | named
    · rfl
    rcases List.mem_cons.mp named with ⟨rfl, rfl⟩ | named
    · rfl
    · obtain ⟨rfl, rfl⟩ := List.mem_singleton.mp named
      rfl
  · intro parms' same
    rw [parms] at same
    cases same

/-- The text of a template is a name that it can be parsed from, unless it is that of an RSA key
without a size. -/
theorem toText_iff {s : List Char} {t : TpmPublicTemplate} (accepted : fromStr s = .ok t) :
    (∃ text, t.toText = .ok text ∧ fromStr text = .ok t) ↔ t.Sized := by
  rcases fromStr_cases accepted with
    ⟨rest, -, ok⟩ | ⟨rest, -, ok⟩ | ⟨rest, -, ok⟩ | ⟨rest, -, ok⟩ | ⟨rest, -, ok⟩
  · exact toText_rsa ok
  · exact iff_of_true (toText_ecc ok).1 (toText_ecc ok).2
  · have named : (TpmAlgId.null, "keyedhash-null:".toList) ∈ keyedhashNames := by decide
    exact iff_of_true (toText_keyedhash named ok).1 (toText_keyedhash named ok).2
  · have named : (TpmAlgId.xor, "keyedhash-xor:".toList) ∈ keyedhashNames := by decide
    exact iff_of_true (toText_keyedhash named ok).1 (toText_keyedhash named ok).2
  · have named : (TpmAlgId.hmac, "keyedhash-hmac:".toList) ∈ keyedhashNames := by decide
    exact iff_of_true (toText_keyedhash named ok).1 (toText_keyedhash named ok).2

theorem nameAlg_of_fromStr {s : List Char} {t : TpmPublicTemplate} (accepted : fromStr s = .ok t) :
    ∃ alg : TpmHash, t.nameAlg = alg.toAlgId := by
  have asym {σ : Type} {select : List Char → Option σ} {allowed : TpmAlgId → Bool}
      {unique : TpmuPublicId} {parms : σ → TpmAlgId → TpmuAsymScheme → TpmuPublicParms}
      {suffix : List Char} (ok : parseAsym select allowed unique parms suffix = .ok t) :
      ∃ alg : TpmHash, t.nameAlg = alg.toAlgId := by
    obtain ⟨-, selector, nameAlg, schemeStr, -, made⟩ := parts_of_parseAsym ok
    obtain ⟨-, -, -, named, -⟩ := asymOf_eq_ok made
    exact ⟨nameAlg, named⟩
  have keyedhash {rest : List Char} {scheme : TpmAlgId} (ok : parseKeyedhash rest scheme = .ok t) :
      ∃ alg : TpmHash, t.nameAlg = alg.toAlgId := by
    obtain ⟨nameAlg, -, ok⟩ := bind_eq_ok.mp ok
    obtain ⟨-, -, ok⟩ := bind_eq_ok.mp ok
    obtain ⟨template, -, ok⟩ := bind_eq_ok.mp ok
    cases ok
    exact ⟨nameAlg, rfl⟩
  rcases fromStr_cases accepted with
    ⟨rest, -, ok⟩ | ⟨rest, -, ok⟩ | ⟨rest, -, ok⟩ | ⟨rest, -, ok⟩ | ⟨rest, -, ok⟩
  · exact asym ok
  · exact asym ok
  · exact keyedhash ok
  · exact keyedhash ok
  · exact keyedhash ok

/-- The template of the public area of an object, which was made from a template, is alike,
whatever attributes the object has beside its usage, and whatever its unique field is. -/
theorem alike_ofPublic {t : TpmPublicTemplate} {pub : TpmtPublic} {unique : TpmuPublicId}
    {attributes : TpmaObject} {authPolicy : Tpm2bDigest} {alg : TpmHash}
    (named : t.nameAlg = alg.toAlgId)
    (converted : resolvePublicTemplate t attributes authPolicy = .ok pub)
    (usage : attributes &&& .usage = t.usageAttributes)
    (fits : publicObjectType unique pub.parameters = .ok pub.objectType) :
    ∃ shown, ofPublic { pub with unique } = .ok shown ∧ Alike t shown := by
  obtain rfl := Except.ok.inj converted
  refine ⟨_, bind_eq_ok.mpr ⟨alg, TpmHash.tryFrom_eq_ok.mpr named, bind_eq_ok.mpr
    ⟨{ new with
        objectType := t.objectType
        publicId := unique
        publicParms := t.publicParms.withSymmetric _
        matched := fits }, ?_, rfl⟩⟩, rfl, named.symm, usage, _, rfl⟩
  rw [withPublic]
  split
  next objectType matched =>
    have same := Except.ok.inj (matched.symm.trans fits)
    subst same
    rfl
  next matched =>
    rw [fits] at matched
    cases matched

end TpmPublicTemplate
end Tpm2
