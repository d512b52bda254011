import Tpm2.Device.Device
import Tpm2.Protocol.Frame.RoundTrip

/-! The buffers of a device: all its commands are written to the same buffer and all responses are
read from another, but nothing that a command leaves there has an influence on later ones. -/

namespace Tpm2

open ByteCodec

/-- A transport whose own state is `σ`. The buffer that `recv` fills is beside that state. -/
structure TpmTransport (σ : Type) where
  send : Bytes → Fallible TpmDeviceError σ Unit
  recv : Fallible TpmDeviceError (Bytes × σ) Unit

/-- A command to transmit. -/
structure TransmitCall where
  C : TpmBodyType
  command : TpmBody C
  sessions : List TpmsAuthCommand

/-- `self.command.resize(TPM_MAX_COMMAND_SIZE, 0)`, with a writer at its start. -/
def resized (command : Bytes) : TpmWriter :=
  ⟨(command ++ List.replicate tpmMaxCommandSize 0).take tpmMaxCommandSize, 0, Nat.zero_le _⟩

/-- Reads the response to a command. -/
def castOutcome (cc : TpmCc) (answer : Bytes) : Except TpmDeviceError TpmResponse := do
  let response ← (TpmResponse.cast answer).mapError .unmarshal
  let outcome ← (castResponseView cc response).mapError .unmarshal
  match outcome with
  | .dispatched response => return response
  | .rejected rc => throw (.tpmRc rc)

/-- A device with its two buffers. -/
structure BufferedDevice (σ : Type) where
  transport : σ
  command : Bytes
  response : Bytes
  /-- History: what has been passed to `send`. -/
  sent : List Bytes

namespace BufferedDevice

variable {σ : Type}

/-- `prepare_command`. What a writer that fails leaves in the buffer is given by `left`. -/
def prepareCommand (left : TransmitCall → Bytes → Bytes) (call : TransmitCall) :
    Fallible TpmDeviceError (BufferedDevice σ) Unit := fun device =>
  let tag : TpmSt := if call.sessions.isEmpty then .noSessions else .sessions
  match tpmMarshalCommand call.command tag call.sessions (resized device.command) with
  | .ok writer => .ok () { device with command := writer.written }
  | .error e => .error (.marshal e) { device with command := left call device.command }

/-- `self.transport.send(&self.command)`. -/
def send (transport : TpmTransport σ) : Fallible TpmDeviceError (BufferedDevice σ) Unit := do
  modify fun device => { device with sent := device.sent ++ [device.command] }
  let device ← get
  Fallible.part BufferedDevice.transport (fun device s => { device with transport := s })
    (transport.send device.command)

/-- `self.transport.recv(&mut self.response)`. -/
def recv (transport : TpmTransport σ) : Fallible TpmDeviceError (BufferedDevice σ) Unit :=
  Fallible.part (fun device => (device.response, device.transport))
    (fun device s => { device with response := s.1, transport := s.2 }) transport.recv

/-- Performs the whole TPM command transmission process. -/
def transmit (left : TransmitCall → Bytes → Bytes) (transport : TpmTransport σ)
    (call : TransmitCall) : Fallible TpmDeviceError (BufferedDevice σ) TpmResponse := do
  prepareCommand left call
  send transport
  recv transport
  let device ← get
  Fallible.ofExcept (castOutcome call.C.CC device.response)

end BufferedDevice

namespace TpmTransport

variable {σ : Type} (transport : TpmTransport σ)

/-- `recv` with a buffer of its own. -/
def receive : Fallible TpmDeviceError σ Bytes := fun s =>
  match transport.recv.run ([], s) with
  | .ok _ (answer, s) => .ok answer s
  | .error e (_, s) => .error e s

/-- The transmission of a command that has buffers of its own: its frame is sent, unless it cannot
be marshalled, and the response is read from what is received. -/
def exchange (call : TransmitCall) : Fallible TpmDeviceError σ TpmResponse := do
  let frame ← Fallible.ofExcept (TpmDevice.prepareCommand call.command call.sessions)
  transport.send frame
  let answer ← transport.receive
  Fallible.ofExcept (castOutcome call.C.CC answer)

/-- `recv` replaces what is in its buffer: neither what it does nor what is received depends on
what was there. -/
structure Replaces : Prop where
  received : ∀ {s after}, transport.recv.run ([], s) = .ok () after →
    ∀ before, transport.recv.run (before, s) = .ok () after
  fails : ∀ {s e after}, transport.recv.run ([], s) = .error e after →
    ∀ before, ∃ answer, transport.recv.run (before, s) = .error e (answer, after.2)

end TpmTransport

/-- The endings of a number of transmissions, one after another, and the state behind them. -/
def transmitAll {σ : Type} (transmit : TransmitCall → Fallible TpmDeviceError σ TpmResponse) :
    List TransmitCall → σ → List (Except TpmDeviceError TpmResponse) × σ
  | [], s => ([], s)
  | call :: calls, s =>
      let ran := (transmit call).run s
      let (endings, last) := transmitAll transmit calls (Fallible.after ran)
      (Fallible.ending ran :: endings, last)

/-- The frame of a command, unless it cannot be marshalled. -/
def framesOf (call : TransmitCall) : List Bytes :=
  match TpmDevice.prepareCommand call.command call.sessions with
  | .ok frame => [frame]
  | .error _ => []

/-- Two endings that are the same, but for what it is that cannot be marshalled. -/
inductive SameEnding : (ending ending' : Except TpmDeviceError TpmResponse) → Prop
  | same (ending) : SameEnding ending ending
  | marshal (e e' : TpmError) : SameEnding (.error (.marshal e)) (.error (.marshal e'))

section
variable {C : TpmBodyType} {command : TpmBody C} {tag : TpmSt} {sessions : List TpmsAuthCommand}

theorem writeCommandAuth_writes (authAreaSize offset : Nat) :
    Writes (writeCommandAuth tag sessions authAreaSize offset) := by
  obtain ⟨auth, -, emits⟩ := authCommands_emits sessions
  unfold writeCommandAuth
  by_cases sessionsTag : tag = .sessions
  · simp only [if_pos sessionsTag]
    cases TpmUint32.tryFrom (authAreaSize - 4)
        (.integerTooLarge offset (tpmValue authAreaSize)) with
    | error e => exact .error e
    | ok word => exact (TpmWriter.writeBytes_emits word.bytes).writes.bind emits.writes
  · simp only [if_neg sessionsTag]
    exact Emits.nil.writes

/-- The frame that is written at the start of a buffer depends on the size of the buffer, not on
what stands there. -/
theorem tpmMarshalCommand_agree {c d c' : TpmWriter} (startc : c.pos = 0) (startd : d.pos = 0)
    (room : c.room = d.room) (ok : tpmMarshalCommand command tag sessions c = .ok c') :
    ∃ d', tpmMarshalCommand command tag sessions d = .ok d' ∧ d'.written = c'.written := by
  unfold tpmMarshalCommand at ok ⊢
  dsimp only at ok ⊢
  rw [startc] at ok
  rw [startd]
  split at ok
  · cases ok
  next tagged =>
  split at ok
  · cases ok
  next paired =>
  obtain ⟨_, counted, ok⟩ := bind_eq_ok.mp ok
  obtain ⟨⟨size, authAreaSize⟩, sized, ok⟩ := bind_eq_ok.mp ok
  obtain ⟨handles, -, emitsHandles⟩ := command.marshalHandles_emits
  have tail : Writes fun writer : TpmWriter => (do
      let writer ← marshal tag writer
      let writer ← marshal size writer
      let writer ← marshal C.CC writer
      let writer ← command.marshalHandles writer
      let writer ← writeCommandAuth tag sessions authAreaSize 0 writer
      command.marshalParameters writer) :=
    (TpmWriter.writeBytes_emits _).writes.bind <| (TpmWriter.writeBytes_emits _).writes.bind <|
      (TpmWriter.writeBytes_emits _).writes.bind <| emitsHandles.writes.bind <|
        (writeCommandAuth_writes authAreaSize 0).bind <| (LawfulFields.codec 0).writes _
  have written : c.written = d.written := by
    rw [Cursor.written, Cursor.written, startc, startd, List.take_zero, List.take_zero]
  obtain ⟨d', wrote, same⟩ := tail.agree room written ok
  refine ⟨d', ?_, same⟩
  rw [if_neg tagged, if_neg paired]
  exact bind_eq_ok.mpr ⟨(), counted, bind_eq_ok.mpr ⟨(size, authAreaSize), sized, wrote⟩⟩

theorem resized_room (buffer : Bytes) : (resized buffer).room = tpmMaxCommandSize := by
  simp [resized, Cursor.room]

end

namespace BufferedDevice

variable {σ : Type} {left : TransmitCall → Bytes → Bytes} {call : TransmitCall}

/-- A command that can be marshalled is marshalled into the buffer, whatever the buffer holds. -/
theorem run_prepareCommand_ok {frame : Bytes}
    (prepared : TpmDevice.prepareCommand call.command call.sessions = .ok frame)
    (device : BufferedDevice σ) :
    (prepareCommand left call).run device = .ok () { device with command := frame } := by
  obtain ⟨writer, marshalled, ok⟩ := bind_eq_ok.mp prepared
  cases ok
  have room : (Cursor.zeros tpmMaxCommandSize).room = (resized device.command).room := by
    rw [Cursor.zeros_room, resized_room]
  obtain ⟨writer', marshalled', written⟩ :=
    tpmMarshalCommand_agree rfl rfl room (mapError_eq_ok.mp marshalled)
  show prepareCommand left call device = _
  unfold prepareCommand
  dsimp only
  rw [marshalled', ← written]

/-- A command that cannot be marshalled is refused, whatever the buffer holds. -/
theorem run_prepareCommand_error (left : TransmitCall → Bytes → Bytes) {e : TpmDeviceError}
    (refused : TpmDevice.prepareCommand call.command call.sessions = .error e)
    (device : BufferedDevice σ) :
    ∃ cause cause', e = .marshal cause ∧ (prepareCommand left call).run device =
      .error (.marshal cause') { device with command := left call device.command } := by
  unfold TpmDevice.prepareCommand at refused
  dsimp only at refused
  cases marshalled : tpmMarshalCommand call.command
      (if call.sessions.isEmpty then TpmSt.noSessions else .sessions) call.sessions
      (Cursor.zeros tpmMaxCommandSize) with
  | ok writer =>
      rw [marshalled] at refused
      cases refused
  | error cause =>
      rw [marshalled] at refused
      cases refused
      cases again : tpmMarshalCommand call.command
          (if call.sessions.isEmpty then TpmSt.noSessions else .sessions) call.sessions
          (resized device.command) with
      | ok writer =>
          have room : (resized device.command).room = (Cursor.zeros tpmMaxCommandSize).room := by
            rw [Cursor.zeros_room, resized_room]
          obtain ⟨writer', ok, -⟩ := tpmMarshalCommand_agree rfl rfl room again
          rw [marshalled] at ok
          cases ok
      | error cause' =>
          refine ⟨cause, cause', rfl, ?_⟩
          show prepareCommand left call device = _
          unfold prepareCommand
          dsimp only
          rw [again]

theorem run_send (transport : TpmTransport σ) (device : BufferedDevice σ) :
    (send transport).run device =
      (Fallible.part BufferedDevice.transport (fun device s => { device with transport := s })
        (transport.send device.command)).run
        { device with sent := device.sent ++ [device.command] } := rfl

/-- A transmission ends as one with buffers of its own, and sends what that one sends. -/
theorem transmit_agrees {transport : TpmTransport σ} (replaces : transport.Replaces)
    (left : TransmitCall → Bytes → Bytes) (call : TransmitCall) (device : BufferedDevice σ) :
    SameEnding (Fallible.ending ((transmit left transport call).run device))
        (Fallible.ending ((transport.exchange call).run device.transport)) ∧
      (Fallible.after ((transmit left transport call).run device)).transport =
        Fallible.after ((transport.exchange call).run device.transport) ∧
      (Fallible.after ((transmit left transport call).run device)).sent =
        device.sent ++ framesOf call := by
  rw [transmit, TpmTransport.exchange, EStateM.run_bind, EStateM.run_bind, framesOf]
  cases prepared : TpmDevice.prepareCommand call.command call.sessions with
  | error e =>
      obtain ⟨cause, cause', rfl, refused⟩ :=
        run_prepareCommand_error left prepared device
      rw [refused]
      exact ⟨.marshal cause' cause, rfl, (List.append_nil _).symm⟩
  | ok frame =>
      rw [run_prepareCommand_ok prepared, Fallible.run_ofExcept_ok]
      dsimp only
      rw [EStateM.run_bind, EStateM.run_bind]
      rw [run_send, Fallible.run_part]
      dsimp only
      cases sent : (transport.send frame).run device.transport with
      | error e s => exact ⟨.same _, rfl, rfl⟩
      | ok _ s =>
          dsimp only
          rw [EStateM.run_bind, EStateM.run_bind, recv, Fallible.run_part]
          dsimp only
          cases received : transport.recv.run ([], s) with
          | error e after =>
              obtain ⟨answer, again⟩ := replaces.fails received device.response
              have receives : transport.receive.run s = .error e after.2 := by
                show transport.receive s = _
                unfold TpmTransport.receive
                rw [received]
              rw [again, receives]
              exact ⟨.same _, rfl, rfl⟩
          | ok _ after =>
              have receives : transport.receive.run s = .ok after.1 after.2 := by
                show transport.receive s = _
                unfold TpmTransport.receive
                rw [received]
              rw [replaces.received received device.response, receives]
              dsimp only
              rw [EStateM.run_bind, EStateM.run_get]
              dsimp only
              cases castOutcome call.C.CC after.1 with
              | error e => exact ⟨.same _, rfl, rfl⟩
              | ok response => exact ⟨.same _, rfl, rfl⟩

/-- Transmissions do not leak into each other: whatever the buffers hold at first and whatever a
command that cannot be marshalled leaves in them, each transmission ends as one with buffers of its
own, the transport goes through the same states, and what is sent are the frames of the commands
that can be marshalled. -/
theorem transmissions_independent {transport : TpmTransport σ} (replaces : transport.Replaces)
    (left : TransmitCall → Bytes → Bytes) (calls : List TransmitCall) (device : BufferedDevice σ) :
    List.Forall₂ SameEnding (transmitAll (transmit left transport) calls device).1
        (transmitAll transport.exchange calls device.transport).1 ∧
      (transmitAll (transmit left transport) calls device).2.transport =
        (transmitAll transport.exchange calls device.transport).2 ∧
      (transmitAll (transmit left transport) calls device).2.sent =
        device.sent ++ calls.flatMap framesOf := by
  induction calls generalizing device with
  | nil => exact ⟨.nil, rfl, (List.append_nil _).symm⟩
  | cons call calls ih =>
      obtain ⟨ending, state, sent⟩ := transmit_agrees replaces left call device
      obtain ⟨endings, states, frames⟩ :=
        ih (Fallible.after ((transmit left transport call).run device))
      rw [state] at endings states
      refine ⟨.cons ending endings, states, ?_⟩
      rw [List.flatMap_cons, ← List.append_assoc, ← sent]
      exact frames

end BufferedDevice

namespace TpmDevice

/-- The transport of a device, with the device as its state. -/
def asTransport : TpmTransport TpmDevice where
  send frame := fun device =>
    let sent := device.sent ++ [frame]
    match device.transport sent with
    | .sendFails e => .error e { device with sent }
    | .recvFails _ | .response _ => .ok () { device with sent }
  recv := fun s =>
    match s.2.transport s.2.sent with
    | .sendFails e | .recvFails e => .error e s
    | .response answer => .ok () (answer, s.2)

theorem run_recv_asTransport (before : Bytes) (device : TpmDevice) :
    asTransport.recv.run (before, device) =
      match device.transport device.sent with
      | .sendFails e | .recvFails e => .error e (before, device)
      | .response answer => .ok () (answer, device) := rfl

theorem asTransport_replaces : asTransport.Replaces := by
  constructor
  · intro device after received before
    rw [run_recv_asTransport] at received ⊢
    cases answered : device.transport device.sent with
    | sendFails e | recvFails e =>
        rw [answered] at received
        cases received
    | response answer =>
        rw [answered] at received
        exact received
  · intro device e after failed before
    rw [run_recv_asTransport] at failed ⊢
    cases answered : device.transport device.sent with
    | sendFails e | recvFails e =>
        rw [answered] at failed
        cases failed
        exact ⟨before, rfl⟩
    | response answer =>
        rw [answered] at failed
        cases failed

theorem exchange_eq (frame : Bytes) :
    exchange frame = asTransport.send frame >>= fun _ => asTransport.receive := by
  funext device
  show exchange frame device = (asTransport.send frame >>= fun _ => asTransport.receive).run device
  rw [EStateM.run_bind]
  have sends : (asTransport.send frame).run device =
      match device.transport (device.sent ++ [frame]) with
      | .sendFails e => .error e { device with sent := device.sent ++ [frame] }
      | .recvFails _ | .response _ => .ok () { device with sent := device.sent ++ [frame] } := rfl
  rw [sends]
  unfold exchange
  dsimp only
  cases answered : device.transport (device.sent ++ [frame]) with
  | sendFails e => rfl
  | recvFails e =>
      show _ = asTransport.receive { device with sent := device.sent ++ [frame] }
      rw [TpmTransport.receive, run_recv_asTransport]
      dsimp only
      rw [answered]
  | response answer =>
      show _ = asTransport.receive { device with sent := device.sent ++ [frame] }
      rw [TpmTransport.receive, run_recv_asTransport]
      dsimp only
      rw [answered]

/-- What a device transmits, it transmits with buffers of its own. -/
theorem exchange_asTransport (call : TransmitCall) :
    asTransport.exchange call = transmit call.command call.sessions := by
  rw [TpmTransport.exchange, transmit]
  congr 1
  funext frame
  rw [exchange_eq, bind_assoc]
  congr 1
  funext _
  congr 1
  funext answer
  unfold castOutcome
  cases TpmResponse.cast answer with
  | error e => rfl
  | ok response =>
      show Fallible.ofExcept
          ((castResponseView call.C.CC response).mapError TpmDeviceError.unmarshal >>= _) =
        Fallible.ofExcept
          ((castResponseView call.C.CC response).mapError TpmDeviceError.unmarshal) >>= _
      cases castResponseView call.C.CC response with
      | error e => rfl
      | ok outcome => cases outcome <;> rfl

end TpmDevice

/-- A device that answers nothing. -/
def silentTpm : TpmDevice := ⟨fun _ => .recvFails .timeout, [], [], []⟩

/-- A command that clears the TPM. -/
def clearCommand : TpmBody TpmClearCommand := ⟨⟨[.new 0x4000000A], rfl⟩, ()⟩

/-- A command with a number of sessions. -/
def clearCall (sessions : Nat) : TransmitCall :=
  ⟨TpmClearCommand, clearCommand, List.replicate sessions passwordSession⟩

/-- Nine sessions are more than a command may have. -/
theorem transmissions_independent_clear :
    framesOf (clearCall 9) = [] ∧
      (transmitAll (BufferedDevice.transmit (fun _ buffer => buffer) TpmDevice.asTransport)
        [clearCall 9, clearCall 1] ⟨silentTpm, [1], [2], []⟩).2.sent =
          [] ++ [clearCall 9, clearCall 1].flatMap framesOf := by
  constructor
  · decide +kernel
  · exact (BufferedDevice.transmissions_independent TpmDevice.asTransport_replaces
      (fun _ buffer => buffer) [clearCall 9, clearCall 1] ⟨silentTpm, [1], [2], []⟩).2.2

end Tpm2
