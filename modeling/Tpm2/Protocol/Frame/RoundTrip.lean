import Tpm2.Protocol.Frame.Command
import Tpm2.Protocol.Frame.Response

/-! What holds of whole frames: the validators accept the frame grammar and nothing else, and every
frame that is marshalled reads back as what it was made of. -/

namespace Tpm2

open ByteCodec

theorem castCommand_validate {b : Bytes} :
    (TpmCommand.cast b >>= TpmCommand.validate) = .ok () ↔
      ∃ frame : CommandFrame, b = frame.bytes ∧ RecordsFill CommandRecord.bytes frame.auth := by
  rw [bind_eq_ok]
  constructor
  · rintro ⟨command, cast, valid⟩
    obtain ⟨envelope, rfl⟩ := TpmCommand.cast_eq_ok.mp cast
    obtain ⟨frame, same⟩ := exists_commandFrame envelope
    exact ⟨frame, same, (TpmCommand.areas_frame same).2.2.mp valid⟩
  · rintro ⟨frame, rfl, records⟩
    have header : tpmHeaderSize ≤ frame.bytes.length := by simp [tpmHeaderSize]
    exact ⟨⟨_, header⟩, TpmCommand.cast_eq_ok.mpr ⟨frame.validateEnvelope_bytes, rfl⟩,
      (TpmCommand.areas_frame rfl).2.2.mpr records⟩

theorem castResponse_validate {dispatch : TpmDispatch} (mem : dispatch ∈ tpmDispatchTable)
    {b : Bytes} :
    (TpmResponse.cast b >>= fun response => response.validate dispatch.cc) = .ok () ↔
      ∃ frame : ResponseFrame, b = frame.bytes ∧ frame.Answers dispatch := by
  have dispatched := dispatchFor_eq_ok.mpr ⟨mem, rfl⟩
  rw [bind_eq_ok]
  constructor
  · rintro ⟨response, cast, valid⟩
    obtain ⟨envelope, rfl⟩ := TpmResponse.cast_eq_ok.mp cast
    obtain ⟨frame, same⟩ := exists_responseFrame envelope
    exact ⟨frame, same, (TpmResponse.validate_frame same dispatched).mp valid⟩
  · rintro ⟨frame, rfl, answers⟩
    have header : tpmHeaderSize ≤ frame.bytes.length := by simp [tpmHeaderSize]
    exact ⟨⟨_, header⟩, TpmResponse.cast_eq_ok.mpr ⟨frame.validateEnvelope_bytes, rfl⟩,
      (TpmResponse.validate_frame rfl dispatched).mpr answers⟩

/-- The validators accept exactly the frames of the grammar: commands on their own, responses for
the command code they answer. -/
theorem validate_accepts :
    (∀ b, (TpmCommand.cast b >>= TpmCommand.validate) = .ok () ↔
      ∃ frame : CommandFrame, b = frame.bytes ∧ RecordsFill CommandRecord.bytes frame.auth) ∧
    ∀ dispatch ∈ tpmDispatchTable, ∀ b,
      (TpmResponse.cast b >>= fun response => response.validate dispatch.cc) = .ok () ↔
        ∃ frame : ResponseFrame, b = frame.bytes ∧ frame.Answers dispatch :=
  ⟨fun _ => castCommand_validate, fun _ mem _ => castResponse_validate mem⟩

section
variable {C : TpmBodyType} {body : TpmBody C} {offset : Nat}

theorem checkedAdd_eq_ok {lhs rhs sum : Nat} (ok : checkedAdd lhs rhs offset = .ok sum) :
    sum = lhs + rhs :=
  (checkedAdd?_eq_some.mp (okOr_eq_ok.mp ok)).2.symm

theorem checkedAdd_ok {lhs rhs : Nat} (fits : lhs + rhs ≤ usizeMax) :
    checkedAdd lhs rhs offset = .ok (lhs + rhs) :=
  okOr_eq_ok.mpr (checkedAdd?_eq_some.mpr ⟨fits, rfl⟩)

theorem bodyAreas_eq_ok {areas : Nat × Nat} (ok : bodyAreas body offset = .ok areas) :
    areas = (C.HANDLES * 4, TpmSized.len body.parameters) := by
  obtain ⟨handleAreaSize, area, ok⟩ := bind_eq_ok.mp ok
  obtain ⟨-, rfl⟩ := checkedMul?_eq_some.mp (okOr_eq_ok.mp area)
  dsimp only at ok
  split at ok
  · cases ok
  · cases ok
    rw [body.len_eq, Nat.add_sub_cancel_left]

theorem sessionsLen_eq_ok {S : Type} [TpmSized S] {sessions : List S} {total : Nat}
    (ok : sessionsLen sessions offset = .ok total) : total = (sessions.map len).sum := by
  have fold (sessions : List S) (start : Nat)
      (ok : sessions.foldlM (fun total session => checkedAdd total (len session) offset) start =
        .ok total) : total = start + (sessions.map len).sum := by
    induction sessions generalizing start with
    | nil =>
        cases ok
        simp
    | cons session rest ih =>
        rw [List.foldlM_cons] at ok
        obtain ⟨sum, first, others⟩ := bind_eq_ok.mp ok
        obtain rfl := checkedAdd_eq_ok first
        rw [ih _ others, List.map_cons, List.sum_cons, Nat.add_assoc]
  rw [fold sessions 0 ok, Nat.zero_add]

theorem tryFrom_eq_ok {value : Nat} {e : TpmError} {v : TpmUint32} :
    TpmUint32.tryFrom value e = .ok v ↔ value < 256 ^ 4 ∧ v.bytes = toBytes 4 value := by
  have bytes (lt : value < 256 ^ 4) :
      (TpmInt.new (UInt32.ofNat value) : TpmUint32).bytes = toBytes 4 value := by
    change toBytes 4 (UInt32.ofNat value).toNat = _
    rw [UInt32.toNat_ofNat_of_lt' lt]
  unfold TpmUint32.tryFrom u32Max
  by_cases lt : value < 256 ^ 4
  · have fits : value ≤ 2 ^ 32 - 1 := by omega
    rw [if_pos fits, Except.ok.injEq, TpmInt.ext_iff, bytes lt]
    exact ⟨fun same => ⟨lt, same.symm⟩, fun parts => parts.2.symm⟩
  · have large : ¬ value ≤ 2 ^ 32 - 1 := by omega
    rw [if_neg large]
    exact ⟨(nomatch ·), fun parts => absurd parts.1 lt⟩

theorem commandAuthSize_eq_ok {tag : TpmSt} {sessions : List TpmsAuthCommand} {size : Nat}
    (ok : commandAuthSize tag sessions offset = .ok size) :
    size = if tag = .sessions then 4 + (sessions.map len).sum else 0 := by
  unfold commandAuthSize at ok
  by_cases sessionsTag : tag = .sessions
  · rw [if_pos sessionsTag] at ok ⊢
    obtain ⟨sum, summed, added⟩ := bind_eq_ok.mp ok
    rw [checkedAdd_eq_ok added, sessionsLen_eq_ok summed]
  · rw [if_neg sessionsTag] at ok ⊢
    exact (Except.ok.inj ok).symm

/-- The sizes that are written ahead of the body. -/
theorem commandSizes_eq_ok {tag : TpmSt} {sessions : List TpmsAuthCommand} {size : TpmUint32}
    {authAreaSize : Nat} (ok : commandSizes body tag sessions offset = .ok (size, authAreaSize)) :
    authAreaSize = (if tag = .sessions then 4 + (sessions.map len).sum else 0) ∧
      10 + (C.HANDLES * 4 + (authAreaSize + TpmSized.len body.parameters)) < 256 ^ 4 ∧
      size.bytes =
        toBytes 4 (10 + (C.HANDLES * 4 + (authAreaSize + TpmSized.len body.parameters))) := by
  obtain ⟨areas, areasOk, ok⟩ := bind_eq_ok.mp ok
  obtain rfl := bodyAreas_eq_ok areasOk
  obtain ⟨auth, authOk, ok⟩ := bind_eq_ok.mp ok
  obtain ⟨handlesAndAuth, first, ok⟩ := bind_eq_ok.mp ok
  obtain ⟨totalBodyLen, second, ok⟩ := bind_eq_ok.mp ok
  obtain ⟨commandSizeUsize, third, ok⟩ := bind_eq_ok.mp ok
  obtain ⟨commandSize, converted, ok⟩ := bind_eq_ok.mp ok
  cases ok
  obtain rfl := checkedAdd_eq_ok first
  obtain rfl := checkedAdd_eq_ok second
  obtain rfl := checkedAdd_eq_ok third
  have total := tryFrom_eq_ok.mp converted
  rw [tpmHeaderSize, Nat.add_assoc (C.HANDLES * 4)] at total
  exact ⟨commandAuthSize_eq_ok authOk, total⟩

/-- The sizes of a small command without sessions. -/
theorem commandSizes_noSessions (few : C.HANDLES ≤ 3) (small : 10 + body.len ≤ tpmMaxCommandSize) :
    ∃ size, commandSizes body .noSessions [] offset = .ok (size, 0) := by
  have areas : bodyAreas body offset = .ok (C.HANDLES * 4, TpmSized.len body.parameters) := by
    refine bind_eq_ok.mpr ⟨_, (handleAreaSize_eq_ok few).mpr rfl, ?_⟩
    dsimp only
    rw [if_neg (by rw [body.len_eq]; omega), body.len_eq, Nat.add_sub_cancel_left]
    rfl
  rw [body.len_eq, tpmMaxCommandSize] at small
  have fits {lhs rhs : Nat} (le : lhs + rhs ≤ 4096) :
      checkedAdd lhs rhs offset = .ok (lhs + rhs) :=
    checkedAdd_ok (Nat.le_trans le (by decide))
  have converted : ∃ size, TpmUint32.tryFrom
      (tpmHeaderSize + (C.HANDLES * 4 + 0 + TpmSized.len body.parameters))
      (.integerTooLarge offset (tpmValue
        (tpmHeaderSize + (C.HANDLES * 4 + 0 + TpmSized.len body.parameters)))) = .ok size := by
    refine ⟨⟨_, length_toBytes ..⟩, tryFrom_eq_ok.mpr ⟨?_, rfl⟩⟩
    rw [tpmHeaderSize]
    omega
  obtain ⟨size, converted⟩ := converted
  refine ⟨size, bind_eq_ok.mpr ⟨_, areas, bind_eq_ok.mpr ⟨0, rfl, ?_⟩⟩⟩
  refine bind_eq_ok.mpr ⟨_, fits (by omega), bind_eq_ok.mpr ⟨_, fits (by omega), ?_⟩⟩
  refine bind_eq_ok.mpr ⟨_, fits (by rw [tpmHeaderSize]; omega), ?_⟩
  exact bind_eq_ok.mpr ⟨size, converted, rfl⟩

theorem checkSessionCount_eq_ok {S : Type} {sessions : List S}
    (ok : checkSessionCount sessions offset = .ok ()) : sessions.length ≤ maxSessions := by
  unfold checkSessionCount at ok
  split at ok
  · cases ok
  next few => exact Nat.not_lt.mp few

theorem writeCommandAuth_emits {tag : TpmSt} {sessions : List TpmsAuthCommand} {auth : Bytes}
    {authAreaSize : Nat} (emits : Emits (ε := TpmError) (writeMany marshal sessions) auth)
    (size : tag = .sessions → authAreaSize = 4 + auth.length) (fits : auth.length < 256 ^ 4) :
    Emits (writeCommandAuth tag sessions authAreaSize offset)
      (if tag = .sessions then prefixed 4 auth else []) := by
  unfold writeCommandAuth
  split
  next sessionsTag =>
    rw [size sessionsTag, Nat.add_sub_cancel_left]
    obtain ⟨word, converted⟩ : ∃ word : TpmUint32, word.bytes = toBytes 4 auth.length :=
      ⟨⟨_, length_toBytes ..⟩, rfl⟩
    simp only [tryFrom_eq_ok.mpr ⟨fits, converted⟩]
    have first : Emits (marshal word) (toBytes 4 auth.length) :=
      converted ▸ TpmWriter.writeBytes_emits word.bytes
    exact first.bind emits
  next => exact Emits.nil

theorem authCommands_emits (sessions : List TpmsAuthCommand) :
    ∃ auth, auth.length = (sessions.map len).sum ∧
      Emits (ε := TpmError) (writeMany marshal sessions) auth :=
  (codec (α := TpmsAuthCommand)).many_emits fun _ _ => ⟨trivial, trivial, trivial, trivial, trivial⟩

theorem authResponses_emits (sessions : List TpmsAuthResponse) :
    ∃ auth, auth.length = (sessions.map len).sum ∧
      Emits (ε := TpmError) (writeMany marshal sessions) auth :=
  (codec (α := TpmsAuthResponse)).many_emits fun _ _ => ⟨trivial, trivial, trivial, trivial⟩

/-- The record of a command session. -/
def TpmsAuthCommand.record (session : TpmsAuthCommand) : CommandRecord where
  nonce := session.nonce.bytes
  attributes := TpmBitflags.bits session.sessionAttributes
  hmac := session.hmac.bytes
  nonce_lt := Nat.lt_of_le_of_lt session.nonce.length_le (by decide)
  hmac_lt := Nat.lt_of_le_of_lt session.hmac.length_le (by decide)
  handle := session.sessionHandle.bytes
  length_handle := session.sessionHandle.length_bytes

/-- The record of a response session. -/
def TpmsAuthResponse.record (session : TpmsAuthResponse) : ResponseRecord where
  nonce := session.nonce.bytes
  attributes := TpmBitflags.bits session.sessionAttributes
  hmac := session.hmac.bytes
  nonce_lt := Nat.lt_of_le_of_lt session.nonce.length_le (by decide)
  hmac_lt := Nat.lt_of_le_of_lt session.hmac.length_le (by decide)

theorem attributes_emits (attributes : TpmaSession) :
    Emits (ε := TpmError) (marshal attributes) [TpmBitflags.bits attributes] := by
  have byte : toBytes 1 (TpmBitflags.bits attributes).toNat = [TpmBitflags.bits attributes] := by
    simp [toBytes]
  rw [← byte]
  exact TpmWriter.writeBytes_emits _

theorem TpmsAuthResponse.marshal_emits (session : TpmsAuthResponse) :
    Emits (ε := TpmError) (marshal session) session.record.bytes := by
  have emits := (session.nonce.marshal_emits).bind
    ((attributes_emits session.sessionAttributes).bind
      ((session.hmac.marshal_emits).bind Emits.nil))
  rw [List.append_nil] at emits
  exact emits

theorem TpmsAuthCommand.marshal_emits (session : TpmsAuthCommand) :
    Emits (ε := TpmError) (marshal session) session.record.bytes := by
  have emits := (TpmWriter.writeBytes_emits session.sessionHandle.bytes).bind
    ((session.nonce.marshal_emits).bind
      ((attributes_emits session.sessionAttributes).bind
        ((session.hmac.marshal_emits).bind Emits.nil)))
  rw [List.append_nil] at emits
  exact emits

/-- The bytes of a written command: those of the frame that its pieces make up. -/
theorem tpmMarshalCommand_eq_ok {row : TpmBodyType × TpmBodyType} (mem : row ∈ tpmDispatch)
    {command : TpmBody row.1} (wf : command.WellFormed) {tag : TpmSt}
    {sessions : List TpmsAuthCommand} {writer d : TpmWriter}
    (ok : tpmMarshalCommand command tag sessions writer = .ok d) :
    ∃ frame : CommandFrame, frame.tag = tag ∧ frame.dispatch = .of row ∧
      Emits command.marshalHandles frame.handles ∧
      Emits (ε := TpmError) (writeMany marshal sessions) frame.auth ∧
      Emits command.marshalParameters frame.parameters ∧ sessions.length ≤ maxSessions ∧
      frame.bytes.length ≤ writer.room ∧ d = writer.push frame.bytes := by
  unfold tpmMarshalCommand at ok
  dsimp only at ok
  split at ok
  · cases ok
  next tagged =>
  split at ok
  · cases ok
  next paired =>
  obtain ⟨_, counted, ok⟩ := bind_eq_ok.mp ok
  obtain ⟨⟨size, authAreaSize⟩, sized, ok⟩ := bind_eq_ok.mp ok
  obtain ⟨authSize, size_lt, sizeBytes⟩ := commandSizes_eq_ok sized
  obtain ⟨handles, lengthHandles, emitsHandles⟩ := command.marshalHandles_emits
  obtain ⟨parameters, lengthParameters, emitsParameters⟩ := TpmBody.marshalParameters_emits wf
  obtain ⟨auth, lengthAuth, emitsAuth⟩ := authCommands_emits sessions
  have tag_mem : tag = .noSessions ∨ tag = .sessions := by
    by_contra other
    exact tagged (not_or.mp other)
  have auth_nil (noSessions : tag ≠ .sessions) : auth = [] := by
    cases sessions with
    | nil => exact emitsAuth.unique Emits.nil
    | cons session rest => exact (paired (by simp [noSessions])).elim
  let parts : CommandParts := ⟨tag, .of row, handles, auth, parameters, tag_mem,
    List.mem_map.mpr ⟨row, mem, rfl⟩, lengthHandles, auth_nil⟩
  have lengthBody : parts.body.length =
      row.1.HANDLES * 4 + (authAreaSize + TpmSized.len command.parameters) := by
    simp only [CommandParts.body, parts, List.length_append, lengthHandles, lengthParameters,
      authSize]
    split
    · rw [length_prefixed, lengthAuth]
    · rfl
  rw [← lengthBody] at size_lt sizeBytes
  let frame : CommandFrame := ⟨parts, size_lt⟩
  have emitsTag : Emits (marshal tag) (toBytes 2 (TpmEnum.value tag).toNat) :=
    TpmWriter.writeBytes_emits _
  have emitsSize : Emits (marshal size) (toBytes 4 (10 + parts.body.length)) :=
    sizeBytes ▸ TpmWriter.writeBytes_emits size.bytes
  have emitsCc : Emits (marshal row.1.CC) (toBytes 4 (TpmEnum.value row.1.CC).toNat) :=
    TpmWriter.writeBytes_emits _
  have emitsArea : Emits (writeCommandAuth tag sessions authAreaSize writer.pos)
      (if tag = .sessions then prefixed 4 auth else []) :=
    writeCommandAuth_emits emitsAuth
      (fun sessionsTag => by rw [authSize, if_pos sessionsTag, lengthAuth]) frame.auth_lt
  have emits := emitsTag.bind (emitsSize.bind (emitsCc.bind (emitsHandles.bind
    (emitsArea.bind emitsParameters))))
  have bytes : frame.bytes = toBytes 2 (TpmEnum.value tag).toNat ++
      (toBytes 4 (10 + parts.body.length) ++ (toBytes 4 (TpmEnum.value row.1.CC).toNat ++
        (handles ++ ((if tag = .sessions then prefixed 4 auth else []) ++ parameters)))) := by
    simp only [CommandParts.bytes, frameHeader, List.append_assoc]
    rfl
  rw [← bytes] at emits
  obtain ⟨fits, pushed⟩ := emits.of_ok ok
  exact ⟨frame, rfl, rfl, emitsHandles, emitsAuth, emitsParameters,
    checkSessionCount_eq_ok counted, fits, pushed⟩

/-- A command without sessions is marshalled wherever it fits. -/
theorem tpmMarshalCommand_ok (few : C.HANDLES ≤ 3) (wf : body.WellFormed)
    (small : 10 + body.len ≤ tpmMaxCommandSize) :
    ∃ d, tpmMarshalCommand body .noSessions [] (Cursor.zeros tpmMaxCommandSize) = .ok d := by
  obtain ⟨size, sized⟩ : ∃ size, commandSizes body .noSessions [] 0 = .ok (size, 0) :=
    commandSizes_noSessions few small
  obtain ⟨handles, lengthHandles, emitsHandles⟩ := body.marshalHandles_emits
  obtain ⟨parameters, lengthParameters, emitsParameters⟩ := TpmBody.marshalParameters_emits wf
  have emitsTag : Emits (marshal TpmSt.noSessions) (toBytes 2 _) := TpmWriter.writeBytes_emits _
  have emitsSize : Emits (marshal size) size.bytes := TpmWriter.writeBytes_emits size.bytes
  have emitsCc : Emits (marshal C.CC) (toBytes 4 _) := TpmWriter.writeBytes_emits _
  have emits := emitsTag.bind (emitsSize.bind (emitsCc.bind (emitsHandles.bind
    (Emits.nil.bind emitsParameters))))
  refine ⟨_, bind_eq_ok.mpr ⟨(), rfl, bind_eq_ok.mpr ⟨_, sized, emits.ok ?_⟩⟩⟩
  simp only [List.length_append, length_toBytes, size.length_bytes, lengthHandles,
    lengthParameters, List.length_nil, Cursor.zeros_room]
  rw [body.len_eq] at small
  omega

theorem pushed_written {writer : TpmWriter} (start : writer.pos = 0) {p : Bytes}
    (fits : p.length ≤ writer.room) : (writer.push p).written = p := by
  rw [Cursor.push_written fits, Cursor.written, start, List.take_zero, List.nil_append]

/-- What is written of a command is a valid frame. -/
theorem tpmMarshalCommand_valid {row : TpmBodyType × TpmBodyType} (mem : row ∈ tpmDispatch)
    {command : TpmBody row.1} (wf : command.WellFormed) {tag : TpmSt}
    {sessions : List TpmsAuthCommand} {writer d : TpmWriter} (start : writer.pos = 0)
    (ok : tpmMarshalCommand command tag sessions writer = .ok d) :
    ∃ (frame : CommandFrame) (view : TpmCommand), TpmCommand.cast d.written = .ok view ∧
      view.bytes = frame.bytes ∧ view.validate = .ok () ∧ frame.tag = tag ∧
      frame.dispatch = .of row ∧ Emits command.marshalHandles frame.handles ∧
      Emits (ε := TpmError) (writeMany marshal sessions) frame.auth ∧
      Emits command.marshalParameters frame.parameters := by
  obtain ⟨frame, rfl, dispatch, emitsHandles, emitsAuth, emitsParameters, few, fits, rfl⟩ :=
    tpmMarshalCommand_eq_ok mem wf ok
  have header : tpmHeaderSize ≤ frame.bytes.length := by simp [tpmHeaderSize]
  let view : TpmCommand := ⟨frame.bytes, header⟩
  have same : view.bytes = frame.bytes := rfl
  have valid : view.validate = .ok () := by
    refine (TpmCommand.areas_frame same).2.2.mpr
      ⟨sessions.map TpmsAuthCommand.record, by simpa using few, ?_⟩
    rw [List.flatMap_map]
    exact emitsAuth.unique (writeMany_emits TpmsAuthCommand.marshal_emits sessions)
  rw [pushed_written start fits]
  exact ⟨frame, view, TpmCommand.cast_eq_ok.mpr ⟨frame.validateEnvelope_bytes, rfl⟩, same, valid,
    rfl, dispatch, emitsHandles, emitsAuth, emitsParameters⟩

theorem cc_of_dispatch {row : TpmBodyType × TpmBodyType} {frame : CommandFrame}
    {view : TpmCommand} (same : view.bytes = frame.bytes) (dispatch : frame.dispatch = .of row) :
    view.cc = .ok row.1.CC := by
  rw [TpmCommand.cc_frame same, dispatch]
  rfl

/-- A valid frame whose areas a command emits is read as that command. -/
theorem unmarshal_of_emitted {row : TpmBodyType × TpmBodyType} {command : TpmBody row.1}
    (wf : command.WellFormed) {frame : CommandFrame} {view : TpmCommand}
    (same : view.bytes = frame.bytes) (valid : view.validate = .ok ())
    (dispatch : frame.dispatch = .of row) (handles : Emits command.marshalHandles frame.handles)
    (parameters : Emits command.marshalParameters frame.parameters) :
    view.unmarshal row.1 = .ok command := by
  simp only [TpmCommand.unmarshal, valid, cc_of_dispatch same dispatch,
    TpmCommand.handles_frame same, (TpmCommand.areas_frame same).2.1, bind, Except.bind, ne_eq,
    not_true_eq_false, if_false]
  exact TpmBody.unmarshalBody_emitted wf handles parameters

/-- Command frame round trip: what a marshalled command's frame is made of, and that it reads back
as the command. -/
theorem tpmMarshalCommand_roundTrip {row : TpmBodyType × TpmBodyType} (mem : row ∈ tpmDispatch)
    (command : TpmBody row.1) (wf : command.WellFormed) (tag : TpmSt)
    (sessions : List TpmsAuthCommand) {writer d : TpmWriter} (start : writer.pos = 0)
    (ok : tpmMarshalCommand command tag sessions writer = .ok d) :
    ∃ frame : TpmCommand, TpmCommand.cast d.written = .ok frame ∧ frame.validate = .ok () ∧
      frame.size.toNat = d.written.length ∧ frame.tag = .ok tag ∧ frame.cc = .ok row.1.CC ∧
      (∃ handles, Emits command.marshalHandles handles ∧ frame.handles = .ok handles) ∧
      (∃ auth, Emits (ε := TpmError) (writeMany marshal sessions) auth ∧
        frame.authArea = .ok auth) ∧
      (∃ parameters, Emits command.marshalParameters parameters ∧
        frame.parameters = .ok parameters) ∧
      frame.unmarshal row.1 = .ok command := by
  obtain ⟨frame, view, cast, same, valid, rfl, dispatch, emitsHandles, emitsAuth,
    emitsParameters⟩ := tpmMarshalCommand_valid mem wf start ok
  obtain ⟨auth, parameters, -⟩ := TpmCommand.areas_frame same
  have size : view.size.toNat = d.written.length := by
    rw [TpmCommand.size_frame same, (TpmCommand.cast_eq_ok.mp cast).2]
  exact ⟨view, cast, valid, size, TpmCommand.tag_frame same, cc_of_dispatch same dispatch,
    ⟨_, emitsHandles, TpmCommand.handles_frame same⟩, ⟨_, emitsAuth, auth⟩,
    ⟨_, emitsParameters, parameters⟩,
    unmarshal_of_emitted wf same valid dispatch emitsHandles emitsParameters⟩

/-- The public area of a keyed hash object with an HMAC scheme. -/
def samplePublicArea : Tpm2bPublic :=
  ⟨⟨.keyedHash, .sha256, ⟨0⟩, .new, .keyedHash ⟨⟨.hmac, .hmac ⟨.sha256⟩⟩⟩, .keyedHash .new⟩⟩

theorem samplePublicArea_wellFormed : WellFormed samplePublicArea :=
  ⟨rfl, ⟨⟨rfl, trivial, trivial⟩, trivial⟩, trivial⟩

def loadCommand : TpmBody TpmLoadCommand :=
  ⟨⟨[.new 0x80000000], rfl⟩, (.new, samplePublicArea, ())⟩

def passwordSession : TpmsAuthCommand := ⟨.new 0x40000009, .new, ⟨0⟩, .new⟩

theorem tpmMarshalCommand_roundTrip_load :
    ∃ d frame, tpmMarshalCommand loadCommand .sessions [passwordSession] (Cursor.zeros 64) =
        .ok d ∧ TpmCommand.cast d.written = .ok frame ∧
      frame.unmarshal TpmLoadCommand = .ok loadCommand := by
  have mem : (TpmLoadCommand, TpmLoadResponse) ∈ tpmDispatch := tpmDispatch_mem rfl
  obtain ⟨d, ok⟩ : ∃ d, tpmMarshalCommand loadCommand .sessions [passwordSession]
      (Cursor.zeros 64) = .ok d := ⟨_, rfl⟩
  obtain ⟨frame, cast, -, -, -, -, -, -, -, same⟩ :=
    tpmMarshalCommand_roundTrip mem loadCommand ⟨trivial, samplePublicArea_wellFormed, trivial⟩
      .sessions [passwordSession] rfl ok
  exact ⟨d, frame, ok, cast, same⟩

theorem responseSizes_eq_ok {tag : TpmSt} {sessions : List TpmsAuthResponse} {size : TpmUint32}
    {paramAreaSize : Nat}
    (ok : responseSizes body tag sessions offset = .ok (size, paramAreaSize)) :
    paramAreaSize = TpmSized.len body.parameters ∧
      10 + (C.HANDLES * 4 + ((if tag = .sessions then 4 else 0) + (paramAreaSize +
        (sessions.map len).sum))) < 256 ^ 4 ∧
      size.bytes = toBytes 4 (10 + (C.HANDLES * 4 + ((if tag = .sessions then 4 else 0) +
        (paramAreaSize + (sessions.map len).sum)))) := by
  obtain ⟨areas, areasOk, ok⟩ := bind_eq_ok.mp ok
  obtain rfl := bodyAreas_eq_ok areasOk
  obtain ⟨sum, summed, ok⟩ := bind_eq_ok.mp ok
  obtain ⟨handlesAndField, first, ok⟩ := bind_eq_ok.mp ok
  obtain ⟨withParameters, second, ok⟩ := bind_eq_ok.mp ok
  obtain ⟨totalBodyLen, third, ok⟩ := bind_eq_ok.mp ok
  obtain ⟨responseSizeUsize, fourth, ok⟩ := bind_eq_ok.mp ok
  obtain ⟨responseSize, converted, ok⟩ := bind_eq_ok.mp ok
  cases ok
  obtain rfl := sessionsLen_eq_ok summed
  obtain rfl := checkedAdd_eq_ok first
  obtain rfl := checkedAdd_eq_ok second
  obtain rfl := checkedAdd_eq_ok third
  obtain rfl := checkedAdd_eq_ok fourth
  have total := tryFrom_eq_ok.mp converted
  rw [tpmHeaderSize, Nat.add_assoc (C.HANDLES * 4 + _), Nat.add_assoc (C.HANDLES * 4)] at total
  exact ⟨rfl, total⟩

theorem writeParamsLen_emits {tag : TpmSt} {paramAreaSize : Nat} (fits : paramAreaSize < 256 ^ 4) :
    Emits (writeParamsLen tag paramAreaSize offset)
      (if tag = .sessions then toBytes 4 paramAreaSize else []) := by
  unfold writeParamsLen
  split
  · obtain ⟨word, converted⟩ : ∃ word : TpmUint32, word.bytes = toBytes 4 paramAreaSize :=
      ⟨⟨_, length_toBytes ..⟩, rfl⟩
    simp only [tryFrom_eq_ok.mpr ⟨fits, converted⟩]
    rw [← converted]
    exact TpmWriter.writeBytes_emits word.bytes
  · exact Emits.nil

/-- The bytes of a written successful response: those of the frame that its pieces make up. -/
theorem tpmMarshalResponse_eq_ok {R : TpmBodyType} {response : TpmBody R}
    (wf : response.WellFormed) {sessions : List TpmsAuthResponse} {writer d : TpmWriter}
    (ok : tpmMarshalResponse response (.fmt0 .success) sessions writer = .ok d) :
    ∃ (frame : ResponseFrame) (handles parameters auth : Bytes), frame.rc = .fmt0 .success ∧
      Emits response.marshalHandles handles ∧ Emits response.marshalParameters parameters ∧
      Emits (ε := TpmError) (writeMany marshal sessions) auth ∧
      frame.tag = (if sessions.isEmpty then .noSessions else .sessions) ∧
      frame.body = handles ++
        (if frame.tag = .sessions then prefixed 4 parameters ++ auth else parameters) ∧
      sessions.length ≤ maxSessions ∧ frame.bytes.length ≤ writer.room ∧
      d = writer.push frame.bytes := by
  obtain ⟨_, counted, ok⟩ := bind_eq_ok.mp ok
  rw [if_neg (by simp)] at ok
  obtain ⟨⟨size, paramAreaSize⟩, sized, ok⟩ := bind_eq_ok.mp ok
  obtain ⟨rfl, size_lt, sizeBytes⟩ := responseSizes_eq_ok sized
  obtain ⟨handles, lengthHandles, emitsHandles⟩ := response.marshalHandles_emits
  obtain ⟨parameters, lengthParameters, emitsParameters⟩ := TpmBody.marshalParameters_emits wf
  obtain ⟨auth, lengthAuth, emitsAuth⟩ := authResponses_emits sessions
  generalize paired : (if sessions.isEmpty then TpmSt.noSessions else .sessions) = tag at *
  have tag_mem : tag = .noSessions ∨ tag = .sessions := by
    rw [← paired]
    split
    · exact .inl rfl
    · exact .inr rfl
  have auth_nil (noSessions : tag ≠ .sessions) : auth = [] := by
    cases sessions with
    | nil => exact emitsAuth.unique Emits.nil
    | cons session rest => exact (noSessions paired.symm).elim
  let body : Bytes := handles ++
    (if tag = .sessions then prefixed 4 parameters ++ auth else parameters)
  have split : body = handles ++ ((if tag = .sessions then toBytes 4 parameters.length else []) ++
      (parameters ++ auth)) := by
    by_cases sessionsTag : tag = .sessions
    · simp [body, sessionsTag, prefixed]
    · simp [body, sessionsTag, auth_nil sessionsTag]
  have lengthBody : body.length = R.HANDLES * 4 + ((if tag = .sessions then 4 else 0) +
      (TpmSized.len response.parameters + (sessions.map len).sum)) := by
    rw [split, List.length_append, List.length_append, List.length_append, lengthHandles,
      lengthParameters, lengthAuth]
    split <;> simp
  rw [← lengthBody] at size_lt sizeBytes
  let frame : ResponseFrame :=
    ⟨tag, .fmt0 .success, body, tag_mem, ⟨0, by decide⟩, size_lt⟩
  have emitsTag : Emits (marshal tag) (toBytes 2 (TpmEnum.value tag).toNat) :=
    TpmWriter.writeBytes_emits _
  have emitsSize : Emits (marshal size) (toBytes 4 (10 + body.length)) :=
    sizeBytes ▸ TpmWriter.writeBytes_emits size.bytes
  have emitsRc : Emits (marshal (TpmRc.fmt0 .success))
      (toBytes 4 (TpmRc.fmt0 .success).value.toNat) := TpmWriter.writeBytes_emits _
  have emitsLen : Emits (writeParamsLen tag (TpmSized.len response.parameters) writer.pos)
      (if tag = .sessions then toBytes 4 parameters.length else []) := by
    rw [lengthParameters]
    exact writeParamsLen_emits (by omega)
  have emitsSessions : Emits (writeResponseAuth tag sessions) auth := by
    unfold writeResponseAuth
    by_cases sessionsTag : tag = .sessions
    · simp only [sessionsTag, if_true]
      exact emitsAuth
    · simp only [sessionsTag, if_false]
      rw [auth_nil sessionsTag]
      exact Emits.nil
  have emits := emitsTag.bind (emitsSize.bind (emitsRc.bind (emitsHandles.bind
    (emitsLen.bind (emitsParameters.bind emitsSessions)))))
  have bytes : frame.bytes = toBytes 2 (TpmEnum.value tag).toNat ++
      (toBytes 4 (10 + body.length) ++ (toBytes 4 (TpmRc.fmt0 .success).value.toNat ++
        (handles ++ ((if tag = .sessions then toBytes 4 parameters.length else []) ++
          (parameters ++ auth))))) := by
    rw [← split]
    simp only [ResponseFrame.bytes, frameHeader, List.append_assoc]
    rfl
  rw [← bytes] at emits
  obtain ⟨fits, pushed⟩ := emits.of_ok ok
  exact ⟨frame, handles, parameters, auth, rfl, emitsHandles, emitsParameters, emitsAuth, rfl, rfl,
    checkSessionCount_eq_ok counted, fits, pushed⟩

/-- The bytes of a written error response: those of a bare header. -/
theorem marshalErrorResponse_eq_ok {rc : TpmRc} (wf : WellFormed rc)
    {sessions : List TpmsAuthResponse} {writer d : TpmWriter}
    (ok : marshalErrorResponse rc sessions writer = .ok d) :
    ∃ frame : ResponseFrame, frame.rc = rc ∧ frame.body = [] ∧
      frame.bytes.length ≤ writer.room ∧ d = writer.push frame.bytes := by
  unfold marshalErrorResponse at ok
  split at ok
  · cases ok
  let frame : ResponseFrame := ⟨.noSessions, rc, [], .inl rfl, wf, by decide⟩
  have emitsTag : Emits (marshal TpmSt.noSessions)
      (toBytes 2 (TpmEnum.value TpmSt.noSessions).toNat) := TpmWriter.writeBytes_emits _
  have emitsSize : Emits (marshal (TpmInt.new (UInt32.ofNat tpmHeaderSize) : TpmUint32))
      (toBytes 4 (10 + ([] : Bytes).length)) := TpmWriter.writeBytes_emits _
  have emitsRc : Emits (marshal rc) (toBytes 4 rc.value.toNat) := TpmWriter.writeBytes_emits _
  have emits := emitsTag.bind (emitsSize.bind emitsRc)
  have bytes : frame.bytes = toBytes 2 (TpmEnum.value TpmSt.noSessions).toNat ++
      (toBytes 4 (10 + ([] : Bytes).length) ++ toBytes 4 rc.value.toNat) := by
    simp only [ResponseFrame.bytes, frame, frameHeader, List.append_assoc, List.append_nil]
  rw [← bytes] at emits
  obtain ⟨fits, pushed⟩ := emits.of_ok ok
  exact ⟨frame, rfl, rfl, fits, pushed⟩

/-- Response frame round trip: what a marshalled response's frame is made of, and that it reads
back as the response; a response code that is not success leaves a bare header. -/
theorem tpmMarshalResponse_roundTrip {row : TpmBodyType × TpmBodyType} (mem : row ∈ tpmDispatch)
    (response : TpmBody row.2) (wf : response.WellFormed) (rc : TpmRc) (rc_wf : WellFormed rc)
    (sessions : List TpmsAuthResponse) {writer d : TpmWriter} (start : writer.pos = 0)
    (ok : tpmMarshalResponse response rc sessions writer = .ok d) :
    ∃ frame : TpmResponse, TpmResponse.cast d.written = .ok frame ∧
      (rc = .fmt0 .success →
        frame.validate row.2.CC = .ok () ∧ frame.rc = .ok (.fmt0 .success) ∧
        (∃ handles parameters auth, Emits response.marshalHandles handles ∧
          Emits response.marshalParameters parameters ∧
          Emits (ε := TpmError) (writeMany marshal sessions) auth ∧
          frame.body = handles ++
            (if sessions.isEmpty then parameters else prefixed 4 parameters ++ auth) ∧
          frame.bodyParts row.2 = .ok (handles, parameters)) ∧
        frame.unmarshal row.2 = .ok response) ∧
      (rc ≠ .fmt0 .success → d.written.length = 10 ∧ frame.rc = .ok rc) := by
  by_cases success : rc = .fmt0 .success
  · subst success
    obtain ⟨frame, handles, parameters, auth, rcEq, emitsHandles, emitsParameters, emitsAuth,
      paired, body, few, fits, rfl⟩ := tpmMarshalResponse_eq_ok wf ok
    have header : tpmHeaderSize ≤ frame.bytes.length := by simp [tpmHeaderSize]
    let view : TpmResponse := ⟨frame.bytes, header⟩
    have same : view.bytes = frame.bytes := rfl
    have lengthHandles : handles.length = row.2.HANDLES * 4 :=
      (TpmBody.handles_lawful row.2.HANDLES).length_emitted (v := response.handles) emitsHandles
    have parameters_lt : parameters.length < 256 ^ 4 := by
      have size_lt := frame.size_lt
      rw [body, List.length_append] at size_lt
      split at size_lt
      · rw [List.length_append, length_prefixed] at size_lt
        omega
      · omega
    have records : RecordsFill ResponseRecord.bytes auth := by
      refine ⟨sessions.map TpmsAuthResponse.record, by simpa using few, ?_⟩
      rw [List.flatMap_map]
      exact emitsAuth.unique (writeMany_emits TpmsAuthResponse.marshal_emits sessions)
    have valid : view.validate row.2.CC = .ok () := by
      refine (TpmResponse.validate_frame same (dispatchFor_response mem)).mpr (.inr ⟨rcEq, ?_⟩)
      refine ⟨handles, _, lengthHandles, body, fun sessionsTag => ?_⟩
      rw [if_pos sessionsTag]
      exact ⟨parameters, auth, parameters_lt, rfl, records⟩
    have handlesLe : row.2.HANDLES ≤ 3 :=
      (dispatch_handles_le (.of row) (List.mem_map.mpr ⟨row, mem, rfl⟩)).2
    have parts := TpmResponse.bodyParts_frame same handlesLe lengthHandles parameters_lt body
    rw [pushed_written start fits]
    refine ⟨view, TpmResponse.cast_eq_ok.mpr ⟨frame.validateEnvelope_bytes, rfl⟩,
      fun _ => ⟨valid, ?_, ⟨handles, parameters, auth, emitsHandles, emitsParameters, emitsAuth, ?_,
        parts⟩, ?_⟩, fun other => (other rfl).elim⟩
    · rw [TpmResponse.rc_frame same, rcEq]
    · rw [TpmResponse.body_frame same, body, paired]
      cases sessions with
      | nil => rfl
      | cons session rest => rfl
    · simp only [TpmResponse.unmarshal, valid, parts, bind, Except.bind]
      exact TpmBody.unmarshalBody_emitted wf emitsHandles emitsParameters
  · obtain ⟨_, -, ok⟩ := bind_eq_ok.mp ok
    rw [if_pos success] at ok
    obtain ⟨frame, rcEq, body, fits, rfl⟩ := marshalErrorResponse_eq_ok rc_wf ok
    have header : tpmHeaderSize ≤ frame.bytes.length := by simp [tpmHeaderSize]
    let view : TpmResponse := ⟨frame.bytes, header⟩
    have same : view.bytes = frame.bytes := rfl
    rw [pushed_written start fits]
    refine ⟨view, TpmResponse.cast_eq_ok.mpr ⟨frame.validateEnvelope_bytes, rfl⟩,
      fun other => (success other).elim, fun _ => ⟨by simp [body], ?_⟩⟩
    rw [TpmResponse.rc_frame same, rcEq]

def readPublicResponse : TpmBody TpmReadPublicResponse :=
  ⟨⟨[], List.length_nil⟩, (samplePublicArea, .new, .new, ())⟩

theorem tpmMarshalResponse_roundTrip_readPublic :
    ∃ d frame, tpmMarshalResponse readPublicResponse (.fmt0 .success) [⟨.new, ⟨0⟩, .new⟩]
        (Cursor.zeros 64) = .ok d ∧ TpmResponse.cast d.written = .ok frame ∧
      frame.unmarshal TpmReadPublicResponse = .ok readPublicResponse := by
  have mem : (TpmReadPublicCommand, TpmReadPublicResponse) ∈ tpmDispatch := tpmDispatch_mem rfl
  obtain ⟨d, ok⟩ : ∃ d, tpmMarshalResponse readPublicResponse (.fmt0 .success)
      [⟨.new, ⟨0⟩, .new⟩] (Cursor.zeros 64) = .ok d := ⟨_, rfl⟩
  obtain ⟨frame, cast, success, -⟩ := tpmMarshalResponse_roundTrip mem readPublicResponse
    ⟨samplePublicArea_wellFormed, trivial, trivial, trivial⟩ (.fmt0 .success) ⟨0, by decide⟩ _ rfl
      ok
  exact ⟨d, frame, ok, cast, (success rfl).2.2.2⟩

/-- An unmarshalled body is well formed. -/
theorem unmarshalBody_wellFormed {p q : Bytes} (ok : TpmBody.unmarshalBody C p q = .ok body) :
    body.WellFormed := by
  obtain ⟨handles, -, ok⟩ := bind_eq_ok.mp ok
  obtain ⟨⟨fields, rest⟩, read, ok⟩ := bind_eq_ok.mp ok
  obtain ⟨_, -, ok⟩ := bind_eq_ok.mp ok
  cases ok
  exact ((LawfulFields.codec _).read_ok read).1

/-- A self test result in a form that decoding does not produce: a format-one base code as a
format-zero response code. -/
def testResult : TpmBody TpmGetTestResultResponse :=
  ⟨⟨[], List.length_nil⟩, (.new, .fmt0 .value, ())⟩

/-- The response is marshalled and cast, but what is unmarshalled is another value. -/
theorem tpmMarshalResponse_roundTrip_fails :
    ∃ d frame, tpmMarshalResponse testResult (.fmt0 .success) [] (Cursor.zeros 64) = .ok d ∧
      TpmResponse.cast d.written = .ok frame ∧
      frame.unmarshal TpmGetTestResultResponse ≠ .ok testResult := by
  have ill : ¬ testResult.WellFormed := by
    rintro ⟨-, ⟨raw, decoded⟩, -⟩
    have raw_eq := TpmRc.value_of_tryFrom decoded
    rw [← raw_eq] at decoded
    revert decoded
    decide
  obtain ⟨d, ok⟩ : ∃ d, tpmMarshalResponse testResult (.fmt0 .success) [] (Cursor.zeros 64) =
      .ok d := ⟨_, rfl⟩
  obtain ⟨frame, cast⟩ : ∃ frame, TpmResponse.cast d.written = .ok frame := by
    cases ok
    exact ⟨_, rfl⟩
  refine ⟨d, frame, ok, cast, fun same => ill ?_⟩
  obtain ⟨_, -, same⟩ := bind_eq_ok.mp same
  obtain ⟨parts, -, same⟩ := bind_eq_ok.mp same
  exact unmarshalBody_wellFormed same

end
end Tpm2
