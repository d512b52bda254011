import Tpm2.Protocol.Data.Attest

/-! Capability data. -/

namespace Tpm2

open ByteCodec

set_option synthInstance.maxSize 1000

structure TpmsAlgProperty where
  alg : TpmAlgId
  algProperties : TpmaAlgorithm
  deriving DecidableEq

instance : TpmStruct TpmsAlgProperty (TpmAlgId × TpmaAlgorithm × Unit) where
  toFields v := (v.alg, v.algProperties, ())
  ofFields f := ⟨f.1, f.2.1⟩

instance : TpmWire TpmsAlgProperty := TpmStruct.wire
instance : TpmViewed TpmsAlgProperty := TpmStruct.viewed

structure TpmsTaggedProperty where
  property : TpmPt
  value : TpmUint32
  deriving DecidableEq

instance : TpmStruct TpmsTaggedProperty (TpmPt × TpmUint32 × Unit) where
  toFields v := (v.property, v.value, ())
  ofFields f := ⟨f.1, f.2.1⟩

instance : TpmWire TpmsTaggedProperty := TpmStruct.wire
instance : TpmViewed TpmsTaggedProperty := TpmStruct.viewed

structure TpmsTaggedPolicy where
  handle : TpmHandle
  policyHash : TpmtHa
  deriving DecidableEq

instance : TpmStruct TpmsTaggedPolicy (TpmHandle × TpmtHa × Unit) where
  toFields v := (v.handle, v.policyHash, ())
  ofFields f := ⟨f.1, f.2.1⟩

instance : TpmWire TpmsTaggedPolicy := TpmStruct.wire
instance : TpmViewed TpmsTaggedPolicy := TpmStruct.viewed

structure TpmsActData where
  handle : TpmHandle
  timeout : TpmUint32
  attributes : TpmaAct
  deriving DecidableEq

instance : TpmStruct TpmsActData (TpmHandle × TpmUint32 × TpmaAct × Unit) where
  toFields v := (v.handle, v.timeout, v.attributes, ())
  ofFields f := ⟨f.1, f.2.1, f.2.2.1⟩

instance : TpmWire TpmsActData := TpmStruct.wire
instance : TpmViewed TpmsActData := TpmStruct.viewed

structure TpmsAcOutput where
  tag : TpmAt
  data : TpmUint32
  deriving DecidableEq

instance : TpmStruct TpmsAcOutput (TpmAt × TpmUint32 × Unit) where
  toFields v := (v.tag, v.data, ())
  ofFields f := ⟨f.1, f.2.1⟩

instance : TpmWire TpmsAcOutput := TpmStruct.wire
instance : TpmViewed TpmsAcOutput := TpmStruct.viewed

abbrev TpmlAcCapabilities := TpmList TpmsAcOutput 64

abbrev TpmlAlgProperty := TpmList TpmsAlgProperty 64

abbrev TpmlAlg := TpmList TpmAlgId 64

abbrev TpmlCc := TpmList TpmCc 256

abbrev TpmlCca := TpmList TpmaCc 256

abbrev TpmlDigest := TpmList Tpm2bDigest 8

abbrev TpmlDigestValues := TpmList TpmtHa 8

abbrev TpmlHandle := TpmList TpmUint32 128

abbrev TpmlEccCurve := TpmList TpmEccCurve 64

abbrev TpmlTaggedTpmProperty := TpmList TpmsTaggedProperty 64

abbrev TpmlTaggedPolicy := TpmList TpmsTaggedPolicy 8

abbrev TpmlActData := TpmList TpmsActData 8

inductive TpmuCapabilities
  | algs (v : TpmlAlgProperty)
  | handles (v : TpmlHandle)
  | pcrs (v : TpmlPcrSelection)
  | commands (v : TpmlCca)
  | ppCommands (v : TpmlCc)
  | auditCommands (v : TpmlCc)
  | tpmProperties (v : TpmlTaggedTpmProperty)
  | eccCurves (v : TpmlEccCurve)
  | authPolicies (v : TpmlTaggedPolicy)
  | act (v : TpmlActData)
  deriving DecidableEq

namespace TpmuCapabilities

instance : TpmSized TpmuCapabilities where
  SIZE := tpmMaxCommandSize
  len
    | .algs v => len v
    | .handles v => len v
    | .pcrs v => len v
    | .commands v => len v
    | .ppCommands v => len v
    | .auditCommands v => len v
    | .tpmProperties v => len v
    | .eccCurves v => len v
    | .authPolicies v => len v
    | .act v => len v

instance : TpmMarshal TpmuCapabilities where
  marshal
    | .algs v => marshal v
    | .handles v => marshal v
    | .pcrs v => marshal v
    | .commands v => marshal v
    | .ppCommands v => marshal v
    | .auditCommands v => marshal v
    | .tpmProperties v => marshal v
    | .eccCurves v => marshal v
    | .authPolicies v => marshal v
    | .act v => marshal v

instance : TpmuView TpmuCapabilities TpmCap (TpmlAlgProperty ⊕ TpmlHandle ⊕ TpmlPcrSelection ⊕
    TpmlCca ⊕ TpmlCc ⊕ TpmlCc ⊕ TpmlTaggedTpmProperty ⊕ TpmlEccCurve ⊕ TpmlTaggedPolicy ⊕
    TpmlActData ⊕ Empty) where
  tags := [[.algs], [.handles], [.pcrs], [.commands], [.ppCommands], [.auditCommands],
    [.tpmProperties], [.eccCurves], [.authPolicies], [.act]]
  toArms
    | .algs v => .inl v
    | .handles v => .inr (.inl v)
    | .pcrs v => .inr (.inr (.inl v))
    | .commands v => .inr (.inr (.inr (.inl v)))
    | .ppCommands v => .inr (.inr (.inr (.inr (.inl v))))
    | .auditCommands v => .inr (.inr (.inr (.inr (.inr (.inl v)))))
    | .tpmProperties v => .inr (.inr (.inr (.inr (.inr (.inr (.inl v))))))
    | .eccCurves v => .inr (.inr (.inr (.inr (.inr (.inr (.inr (.inl v)))))))
    | .authPolicies v => .inr (.inr (.inr (.inr (.inr (.inr (.inr (.inr (.inl v))))))))
    | .act v => .inr (.inr (.inr (.inr (.inr (.inr (.inr (.inr (.inr (.inl v)))))))))
  ofArms
    | .inl v => .algs v
    | .inr (.inl v) => .handles v
    | .inr (.inr (.inl v)) => .pcrs v
    | .inr (.inr (.inr (.inl v))) => .commands v
    | .inr (.inr (.inr (.inr (.inl v)))) => .ppCommands v
    | .inr (.inr (.inr (.inr (.inr (.inl v))))) => .auditCommands v
    | .inr (.inr (.inr (.inr (.inr (.inr (.inl v)))))) => .tpmProperties v
    | .inr (.inr (.inr (.inr (.inr (.inr (.inr (.inl v))))))) => .eccCurves v
    | .inr (.inr (.inr (.inr (.inr (.inr (.inr (.inr (.inl v)))))))) => .authPolicies v
    | .inr (.inr (.inr (.inr (.inr (.inr (.inr (.inr (.inr (.inl v))))))))) => .act v
  ofArms_toArms u := by cases u <;> rfl
  toArms_ofArms a := by
    rcases a with _ | _ | _ | _ | _ | _ | _ | _ | _ | _ | _ <;> first | rfl | contradiction
  nodup := by decide

instance : TpmuView.LawfulUnion TpmuCapabilities where
  len_eq u := by cases u <;> rfl
  marshal_eq u := by cases u <;> rfl
  maxLen_le := by decide

instance : TpmUnion TpmuCapabilities TpmCap := .infer
instance : TpmUnionView TpmuCapabilities TpmCap := .infer

end TpmuCapabilities

/-- A capability and its values. Marshalling does not compare them. -/
structure TpmsCapabilityData where
  capability : TpmCap
  data : TpmuCapabilities
  deriving DecidableEq

namespace TpmsCapabilityData

instance : TpmSized TpmsCapabilityData :=
  ⟨4 + SIZE TpmuCapabilities, fun v => len v.capability + len v.data⟩

instance : TpmMarshal TpmsCapabilityData where
  marshal v writer := do
    let writer ← marshal v.capability writer
    marshal v.data writer

instance : TpmUnmarshal TpmsCapabilityData where
  unmarshal buffer := do
    let (capability, buffer) ← unmarshal buffer
    let (data, buffer) ← unmarshalTagged capability buffer
    return (⟨capability, data⟩, buffer)

instance : TpmSpec TpmsCapabilityData where
  Writable v := Writable v.data
  WellFormed v := matchesTag v.data v.capability ∧ WellFormed v.data
  maxLen := maxLen TpmCap + maxLen TpmuCapabilities

theorem unmarshal_eq_ok {b r : Bytes} {v : TpmsCapabilityData} :
    unmarshal b = .ok (v, r) ↔
      seqRead unmarshal unmarshalTagged b = .ok ((v.capability, v.data), r) := by
  simp only [seqRead_eq_ok, unmarshal, bind_eq_ok, Prod.exists]
  constructor
  · rintro ⟨_, m, first, _, r, second, ok⟩
    cases ok
    exact ⟨m, first, second⟩
  · rintro ⟨m, first, second⟩
    exact ⟨_, m, first, _, r, second, rfl⟩

instance : LawfulWire TpmsCapabilityData where
  codec := by
    have law := ((codec (α := TpmCap)).seq fun capability =>
      codec_tagged (U := TpmuCapabilities) capability).iso
        (f := fun v : TpmsCapabilityData => (v.capability, v.data)) fun _ _ _ => unmarshal_eq_ok
    exact law.congr_prop (fun _ => (and_iff_right trivial).symm)
      fun _ => (and_iff_right trivial).symm
  len_le v := Nat.add_le_add (len_le v.capability) (len_tagged_le v.data)
  maxLen_le := by decide

instance : TpmWire TpmsCapabilityData := .infer

end TpmsCapabilityData

end Tpm2
