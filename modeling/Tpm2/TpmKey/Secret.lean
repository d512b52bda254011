import Mathlib.Data.List.Basic
import Tpm2.TpmKey.File

/-! The `secret` field of a key file against what its documentation permits for each kind of key. -/

namespace Tpm2

open ByteCodec

/-- The encoding of a non-empty secret: a size and exactly that many bytes, at most as many as an
encrypted secret has. -/
def MarshaledSecret (secret : Bytes) : Prop :=
  ∃ payload : Bytes, payload ≠ [] ∧ payload.length ≤ maxRsaKeyBytes ∧
    secret = toBytes 2 payload.length ++ payload

/-- The secrets that the documentation permits: `secret` is forbidden for a loadable key, required
for an importable key and optional for sealed data. -/
def SecretPermitted (kind : TpmKeyType) (secret : Bytes) : Prop :=
  match kind with
  | .loadable => secret = []
  | .importable => MarshaledSecret secret
  | .sealedData => secret = [] ∨ MarshaledSecret secret

theorem ofBytes_pair (high low : UInt8) :
    ofBytes [high, low] = high.toNat * 256 + low.toNat := by
  rw [show [high, low] = [] ++ [high] ++ [low] from rfl, ofBytes_concat, ofBytes_concat,
    ofBytes_nil]
  omega

theorem toBytes_two (high low : UInt8) :
    toBytes 2 (high.toNat * 256 + low.toNat) = [high, low] := by
  rw [← ofBytes_pair]
  exact toBytes_ofBytes [high, low]

/-- What passes is a size and that many bytes, but there may be none. -/
theorem tpmValidateSecretShape_eq_ok {E : Type} {secret : Bytes} :
    (tpmValidateSecretShape secret : Except (TpmKeyError E) Unit) = .ok () ↔
      ∃ payload : Bytes, payload.length ≤ maxRsaKeyBytes ∧
        secret = toBytes 2 payload.length ++ payload := by
  constructor
  · intro ok
    cases secret with
    | nil => cases ok
    | cons high rest =>
        cases rest with
        | nil => cases ok
        | cons low payload =>
            unfold tpmValidateSecretShape at ok
            dsimp only at ok
            split at ok
            · cases ok
            · next valid =>
                have size : payload.length = high.toNat * 256 + low.toNat := by omega
                refine ⟨payload, by omega, ?_⟩
                rw [size, toBytes_two]
                rfl
  · rintro ⟨payload, le, rfl⟩
    have fits : payload.length < 256 ^ 2 := Nat.lt_of_le_of_lt le (by decide)
    obtain ⟨high, low, head⟩ := List.length_eq_two.mp (length_toBytes 2 payload.length)
    have size : high.toNat * 256 + low.toNat = payload.length := by
      rw [← ofBytes_pair, ← head, ofBytes_toBytes fits]
    have valid : ¬ (payload.length ≠ high.toNat * 256 + low.toNat ∨
        high.toNat * 256 + low.toNat > maxRsaKeyBytes) := by
      rw [size]
      omega
    rw [head]
    exact if_neg valid

/-- The only bytes that pass as a shape and hold no secret are an empty payload. -/
theorem tpmValidateSecretShape_iff {E : Type} {secret : Bytes} :
    (tpmValidateSecretShape secret : Except (TpmKeyError E) Unit) = .ok () ↔
      MarshaledSecret secret ∨ secret = [0, 0] := by
  rw [tpmValidateSecretShape_eq_ok]
  constructor
  · rintro ⟨payload, le, rfl⟩
    by_cases empty : payload = []
    · rw [empty]
      exact .inr rfl
    · exact .inl ⟨payload, empty, le, rfl⟩
  · rintro (⟨payload, -, le, rfl⟩ | rfl)
    · exact ⟨payload, le, rfl⟩
    · exact ⟨[], Nat.zero_le _, rfl⟩

theorem not_marshaledSecret_nil : ¬ MarshaledSecret [] := by
  rintro ⟨payload, -, -, eq⟩
  have lengths := congrArg List.length eq
  rw [List.length_nil, List.length_append, length_toBytes] at lengths
  omega

/-- An empty payload is not a secret. -/
theorem not_marshaledSecret_empty : ¬ MarshaledSecret [0, 0] := by
  rintro ⟨payload, some_payload, -, eq⟩
  have lengths := congrArg List.length eq
  rw [List.length_append, length_toBytes] at lengths
  have none_left : payload.length = 0 := by
    change 2 = 2 + payload.length at lengths
    omega
  exact some_payload (List.length_eq_zero_iff.mp none_left)

theorem tpmValidateSecret_eq_ok {E : Type} {kind : TpmKeyType} {secret : Bytes} :
    (tpmValidateSecret kind secret : Except (TpmKeyError E) Unit) = .ok () ↔
      SecretPermitted kind secret ∨ kind ≠ .loadable ∧ secret = [0, 0] := by
  cases kind with
  | loadable =>
      change (if secret ≠ [] then _ else _) = _ ↔ secret = [] ∨ _
      by_cases absent : secret = []
      · simp [absent]
      · simp [absent]
  | importable =>
      change (if secret = [] then _ else _) = _ ↔ MarshaledSecret secret ∨ _
      by_cases absent : secret = []
      · simp [absent, not_marshaledSecret_nil]
      · rw [if_neg absent, tpmValidateSecretShape_iff]
        simp
  | sealedData =>
      change (if secret = [] then _ else _) = _ ↔ (secret = [] ∨ MarshaledSecret secret) ∨ _
      by_cases absent : secret = []
      · simp [absent]
      · rw [if_neg absent, tpmValidateSecretShape_iff]
        simp [absent]

/-- A secret is validated as documented if and only if it is not the encoding of an empty payload
in a key that may have one. -/
theorem tpmValidateSecret_as_documented (E : Type) (kind : TpmKeyType) (secret : Bytes) :
    ((tpmValidateSecret kind secret : Except (TpmKeyError E) Unit) = .ok () ↔
        SecretPermitted kind secret) ↔
      (kind = .loadable ∨ secret ≠ [0, 0]) := by
  rw [tpmValidateSecret_eq_ok]
  constructor
  · intro documented
    by_contra! empty
    obtain ⟨other, rfl⟩ := empty
    have permitted := documented.mp (.inr ⟨other, rfl⟩)
    cases kind with
    | loadable => exact other rfl
    | importable => exact not_marshaledSecret_empty permitted
    | sealedData =>
        cases permitted with
        | inl absent => cases absent
        | inr marshaled => exact not_marshaledSecret_empty marshaled
  · intro condition
    have empty_out : ¬ (kind ≠ .loadable ∧ secret = [0, 0]) := by
      rintro ⟨other, empty⟩
      exact condition.elim other fun differs => differs empty
    rw [or_iff_left empty_out]

/-- An importable key with an empty payload passes. -/
theorem tpmValidateSecret_empty_payload :
    ¬ ((tpmValidateSecret .importable [0, 0] : Except (TpmKeyError Unit) Unit) = .ok () ↔
      SecretPermitted .importable [0, 0]) := by
  intro documented
  have passes : (tpmValidateSecret .importable [0, 0] : Except (TpmKeyError Unit) Unit) = .ok () :=
    tpmValidateSecret_eq_ok.mpr (.inr ⟨by decide, rfl⟩)
  exact not_marshaledSecret_empty (documented.mp passes)

/-- `with_secret` stores the encoding of what it is given, also where that is empty. -/
theorem TpmKeyFile.secret_withSecret (key : TpmKeyFile) (secret : Tpm2bEncryptedSecret) :
    (key.withSecret secret).secret = secret.wire := by
  have fits : secret.wire.length ≤ len secret := by
    rw [TpmBuffer.wire, List.length_append, length_toBytes]
    exact Nat.le_refl _
  obtain ⟨writer, marshaled, written⟩ := secret.marshal_emits.written fits
  unfold withSecret
  rw [marshaled]
  exact written

/-- An importable key keeps the secret that `with_secret` was given, empty or not. -/
theorem TpmKeyFile.validate_withSecret {E : Type} (key : TpmKeyFile)
    (secret : Tpm2bEncryptedSecret) :
    (tpmValidateSecret .importable (key.withSecret secret).secret :
      Except (TpmKeyError E) Unit) = .ok () := by
  rw [secret_withSecret, tpmValidateSecret_eq_ok]
  by_cases empty : secret.bytes = []
  · refine .inr ⟨by decide, ?_⟩
    rw [TpmBuffer.wire, TpmBuffer.size, empty]
    rfl
  · exact .inl ⟨secret.bytes, empty, secret.length_le, rfl⟩

end Tpm2
