import Tpm2.ByteCodec.Chunks
import Tpm2.Device.Device

/-! The responder: it serves the command frames of a byte stream, one after the other. -/

namespace Tpm2

open ByteCodec

/-- `frame_size`: the total frame length that a frame header declares. -/
def frameSize (header : Bytes) : Except TpmDeviceError Nat :=
  if header.length < 6 then
    .error .invalidResponse
  else
    let size := (readU32 header sizeOffset).toNat
    if tpmHeaderSize ≤ size ∧ size ≤ tpmMaxCommandSize then
      .ok size
    else
      .error .invalidResponse

/-- A program that reads from a peer: it has no result as long as it waits. -/
abbrev Reading (α : Type) := ExceptT TpmDeviceError Option α

/-- What a program returns that reads on where the stream ends. -/
def Reading.atEnd {α : Type} : Ending IoError → Reading α
  | .waits => ExceptT.mk none
  | .closed => throw .unexpectedEof
  | .fails e => throw (.io e)

def fillExact (ending : Ending IoError) (n : Nat) (chunks : List Bytes) :
    Reading (Bytes × List Bytes) :=
  match readExact ending n chunks with
  | .ok read => return read
  | .error ending => .atEnd ending

/-- Reads one complete TPM frame from a blocking stream. -/
def readFrame (ending : Ending IoError) (chunks : List Bytes) : Reading (Bytes × List Bytes) := do
  let (header, chunks) ← fillExact ending tpmHeaderSize chunks
  let size ← ExceptT.mk (some (frameSize header))
  let (body, chunks) ← fillExact ending (size - tpmHeaderSize) chunks
  return (header ++ body, chunks)

/-- What a responder does, in order. -/
inductive ServeEvent
  | received (frame : Bytes)
  | handled (frame : Bytes)
  | sent (response : Bytes)
  deriving DecidableEq

theorem fillExact_ok (ending : Ending IoError) {n : Nat} {chunks : List Bytes}
    (enough : n ≤ chunks.flatten.length) :
    ∃ rest, fillExact ending n chunks = pure (chunks.flatten.take n, rest) ∧
      rest.flatten = chunks.flatten.drop n := by
  obtain ⟨rest, read, left⟩ := readExact_ok ending enough
  exact ⟨rest, by rw [fillExact, read], left⟩

theorem fillExact_short {ending : Ending IoError} {n : Nat} {chunks : List Bytes}
    (short : chunks.flatten.length < n) : fillExact ending n chunks = .atEnd ending := by
  rw [fillExact, readExact_short short]

/-- The frame is well sized: its header declares its length. -/
def WellSized (frame : Bytes) : Prop := frameSize frame = .ok frame.length

theorem frameSize_bounds {header : Bytes} {size : Nat} (ok : frameSize header = .ok size) :
    tpmHeaderSize ≤ size ∧ size ≤ tpmMaxCommandSize := by
  unfold frameSize at ok
  split at ok
  · cases ok
  · dsimp only at ok
    split at ok
    next inRange =>
      cases ok
      exact inRange
    next => cases ok

/-- A header declares its size in its first six bytes. -/
theorem frameSize_take {b : Bytes} {n : Nat} (header : tpmHeaderSize ≤ n) (within : n ≤ b.length) :
    frameSize (b.take n) = frameSize b := by
  have enough : 10 ≤ n := header
  have taken : (b.take n).length = n := List.length_take_of_le within
  have same : readU32 (b.take n) sizeOffset = readU32 b sizeOffset := by
    apply UInt32.toNat_inj.mp
    rw [readU32_toNat, readU32_toNat,
      ← numberAt_append_left (r := b.drop n) (by rw [taken, sizeOffset]; omega),
      List.take_append_drop]
  have long : ¬ (b.take n).length < 6 := by omega
  have long' : ¬ b.length < 6 := by omega
  rw [frameSize, frameSize, if_neg long, if_neg long', same]

section
variable {ending : Ending IoError} {chunks : List Bytes}

theorem readFrame_header (short : chunks.flatten.length < tpmHeaderSize) :
    readFrame ending chunks = .atEnd ending := by
  rw [readFrame, fillExact_short short]
  cases ending <;> rfl

/-- Behind a whole header the frame is read, if its size is in range and all of it is there. -/
theorem readFrame_body (ending : Ending IoError)
    (header : tpmHeaderSize ≤ chunks.flatten.length) :
    (∀ e, frameSize chunks.flatten = .error e → readFrame ending chunks = throw e) ∧
    ∀ size, frameSize chunks.flatten = .ok size →
      (chunks.flatten.length < size → readFrame ending chunks = .atEnd ending) ∧
      (size ≤ chunks.flatten.length → ∃ rest,
        readFrame ending chunks = pure (chunks.flatten.take size, rest) ∧
          rest.flatten = chunks.flatten.drop size) := by
  obtain ⟨left, read, remains⟩ := fillExact_ok ending header
  have sized := frameSize_take (Nat.le_refl _) header
  refine ⟨fun e failed => ?_, fun size declared => ?_⟩
  · rw [readFrame, read, pure_bind]
    dsimp only
    rw [sized, failed]
    rfl
  have bounds := (frameSize_bounds declared).1
  have length : left.flatten.length = chunks.flatten.length - tpmHeaderSize := by
    rw [remains, List.length_drop]
  have next : readFrame ending chunks = fillExact ending (size - tpmHeaderSize) left >>=
      fun (body, rest) => pure (chunks.flatten.take tpmHeaderSize ++ body, rest) := by
    rw [readFrame, read, pure_bind]
    dsimp only
    rw [sized, declared]
    rfl
  constructor
  · intro short
    rw [next, fillExact_short (by omega)]
    cases ending <;> rfl
  · intro within
    obtain ⟨rest, readBody, remainsBody⟩ :=
      fillExact_ok ending (show size - tpmHeaderSize ≤ left.flatten.length by omega)
    have split : size = tpmHeaderSize + (size - tpmHeaderSize) := by omega
    refine ⟨rest, ?_, ?_⟩
    · rw [next, readBody, pure_bind]
      dsimp only
      rw [remains, split, List.take_add, ← split]
    · rw [remainsBody, remains, List.drop_drop, ← split]

/-- A frame that is read is taken off the front of the stream. -/
theorem readFrame_split {frame : Bytes} {rest : List Bytes}
    (ok : (readFrame ending chunks).run = some (.ok (frame, rest))) :
    chunks.flatten = frame ++ rest.flatten ∧ WellSized frame := by
  have none (other : readFrame ending chunks = .atEnd ending) : False := by
    rw [other] at ok
    cases ending <;> cases ok
  by_cases header : tpmHeaderSize ≤ chunks.flatten.length
  · obtain ⟨failed, declared⟩ := readFrame_body ending header
    cases sized : frameSize chunks.flatten with
    | error e =>
        rw [failed e sized] at ok
        cases ok
    | ok size =>
        obtain ⟨short, whole⟩ := declared size sized
        by_cases within : size ≤ chunks.flatten.length
        · obtain ⟨rest', read, remains⟩ := whole within
          rw [read] at ok
          cases ok
          refine ⟨?_, ?_⟩
          · rw [remains, List.take_append_drop]
          · rw [WellSized, frameSize_take (frameSize_bounds sized).1 within, sized,
              List.length_take_of_le within]
        · exact (none (short (Nat.lt_of_not_le within))).elim
  · exact (none (readFrame_header (Nat.lt_of_not_le header))).elim

theorem readFrame_shorter {frame : Bytes} {rest : List Bytes}
    (ok : (readFrame ending chunks).run = some (.ok (frame, rest))) :
    rest.flatten.length < chunks.flatten.length := by
  obtain ⟨split, sized⟩ := readFrame_split ok
  have header : 10 ≤ frame.length := (frameSize_bounds sized).1
  rw [split, List.length_append]
  omega

end

/-- Serves commands until the peer disconnects: what is done, and what is returned unless the
responder still waits. `sink` tells whether the last of some responses is written. -/
def serve {η : Type} (handler : η → Bytes → Bytes × η) (sink : List Bytes → Option IoError)
    (ending : Ending IoError) (chunks : List Bytes) (state : η) (sent : List Bytes) :
    List ServeEvent × Option (Except TpmDeviceError Unit) :=
  match _ : (readFrame ending chunks).run with
  | none => ([], none)
  | some (.error .unexpectedEof) => ([], some (.ok ()))
  | some (.error e) => ([], some (.error e))
  | some (.ok (frame, rest)) =>
      let (response, state) := handler state frame
      let sent := sent ++ [response]
      match sink sent with
      | some e => ([.received frame, .handled frame], some (.error (.io e)))
      | none =>
          let (events, result) := serve handler sink ending rest state sent
          (.received frame :: .handled frame :: .sent response :: events, result)
termination_by chunks.flatten.length
decreasing_by exact readFrame_shorter ‹_›

/-- What serving `frames` does: each is received and handled, and its response sent, before the
next. A response that is refused is the end. -/
def served {η : Type} (handler : η → Bytes → Bytes × η) (sink : List Bytes → Option IoError) :
    η → List Bytes → List Bytes → List ServeEvent
  | _, _, [] => []
  | state, sent, frame :: frames =>
      let (response, state) := handler state frame
      match sink (sent ++ [response]) with
      | some _ => [.received frame, .handled frame]
      | none => .received frame :: .handled frame :: .sent response ::
          served handler sink state (sent ++ [response]) frames

/-- The refusal of the first response to `frames` that is refused. -/
def refusal {η : Type} (handler : η → Bytes → Bytes × η) (sink : List Bytes → Option IoError) :
    η → List Bytes → List Bytes → Option IoError
  | _, _, [] => none
  | state, sent, frame :: frames =>
      let (response, state) := handler state frame
      match sink (sent ++ [response]) with
      | some e => some e
      | none => refusal handler sink state (sent ++ [response]) frames

/-- The stream starts with the well-sized frames `frames`, and `rest` does not start with another
one. -/
structure Splits (bytes : Bytes) (frames : List Bytes) (rest : Bytes) : Prop where
  joined : bytes = frames.flatten ++ rest
  wellSized : ∀ frame ∈ frames, WellSized frame
  incomplete : ∀ size, tpmHeaderSize ≤ rest.length → frameSize rest = .ok size → rest.length < size

/-- The stream ends in the middle of a frame: in its header, or in a body whose size is in range. -/
def Truncated (rest : Bytes) : Prop :=
  rest ≠ [] ∧ (rest.length < tpmHeaderSize ∨ ∃ size, frameSize rest = .ok size)

theorem exists_splits (bytes : Bytes) : ∃ frames rest, Splits bytes frames rest := by
  by_cases complete : ∃ size, tpmHeaderSize ≤ bytes.length ∧ frameSize bytes = .ok size ∧
      size ≤ bytes.length
  · obtain ⟨size, header, sized, within⟩ := complete
    have bounds : 10 ≤ size := (frameSize_bounds sized).1
    have shorter : (bytes.drop size).length < bytes.length := by
      rw [List.length_drop]
      omega
    obtain ⟨frames, rest, split⟩ := exists_splits (bytes.drop size)
    refine ⟨bytes.take size :: frames, rest, ?_, ?_, split.incomplete⟩
    · rw [List.flatten_cons, List.append_assoc, ← split.joined, List.take_append_drop]
    · rw [List.forall_mem_cons]
      refine ⟨?_, split.wellSized⟩
      rw [WellSized, frameSize_take bounds within, sized, List.length_take_of_le within]
  · refine ⟨[], bytes, rfl, by simp, fun size header sized => ?_⟩
    by_contra within
    exact complete ⟨size, header, sized, Nat.not_lt.mp within⟩
termination_by bytes.length

/-- What serving returns where the stream ends: a clean disconnect and one in the middle of a frame
are not told apart. -/
def servedEnd : Ending IoError → Option (Except TpmDeviceError Unit)
  | .waits => none
  | .closed => some (.ok ())
  | .fails e => some (.error (.io e))

/-- What serving returns at the first bytes that are not a whole frame. -/
def servedRest (ending : Ending IoError) (rest : Bytes) : Option (Except TpmDeviceError Unit) :=
  if rest.length < tpmHeaderSize then
    servedEnd ending
  else
    match frameSize rest with
    | .error e => some (.error e)
    | .ok _ => servedEnd ending

theorem frameSize_eq_error {header : Bytes} {e : TpmDeviceError}
    (failed : frameSize header = .error e) : e = .invalidResponse := by
  unfold frameSize at failed
  split at failed
  · cases failed
    rfl
  · dsimp only at failed
    split at failed <;> cases failed
    rfl

section
variable {η : Type} {handler : η → Bytes → Bytes × η} {sink : List Bytes → Option IoError}
  {ending : Ending IoError} {chunks : List Bytes}

theorem serve_atEnd (state : η) (sent : List Bytes)
    (stops : readFrame ending chunks = .atEnd ending) :
    serve handler sink ending chunks state sent = ([], servedEnd ending) := by
  rw [serve, stops]
  cases ending <;> rfl

theorem serve_invalid (state : η) (sent : List Bytes)
    (fails : readFrame ending chunks = throw .invalidResponse) :
    serve handler sink ending chunks state sent = ([], some (.error .invalidResponse)) := by
  rw [serve, fails]
  rfl

theorem serve_frame (state : η) (sent : List Bytes) {frame : Bytes} {rest : List Bytes}
    (read : readFrame ending chunks = pure (frame, rest)) :
    serve handler sink ending chunks state sent =
      match sink (sent ++ [(handler state frame).1]) with
      | some e => ([.received frame, .handled frame], some (.error (.io e)))
      | none =>
          let (events, result) := serve handler sink ending rest (handler state frame).2
            (sent ++ [(handler state frame).1])
          (.received frame :: .handled frame :: .sent (handler state frame).1 :: events,
            result) := by
  rw [serve, read]
  rfl

/-- Whatever the chunks are, the frames of the stream are served in order; then the rest of it tells
what is returned. -/
theorem serve_splits {frames : List Bytes} {rest : Bytes}
    (split : Splits chunks.flatten frames rest) (state : η) (sent : List Bytes) :
    serve handler sink ending chunks state sent = (served handler sink state sent frames,
      match refusal handler sink state sent frames with
      | some e => some (.error (.io e))
      | none => servedRest ending rest) := by
  induction frames generalizing chunks state sent with
  | nil =>
      obtain rfl : chunks.flatten = rest := split.joined
      rw [served, refusal, servedRest]
      by_cases header : tpmHeaderSize ≤ chunks.flatten.length
      · obtain ⟨failed, declared⟩ := readFrame_body ending header
        rw [if_neg (Nat.not_lt.mpr header)]
        cases sized : frameSize chunks.flatten with
        | error e =>
            obtain rfl := frameSize_eq_error sized
            exact serve_invalid state sent (failed _ sized)
        | ok size =>
            have short := split.incomplete size header sized
            exact serve_atEnd state sent ((declared size sized).1 short)
      · have short := Nat.lt_of_not_le header
        rw [if_pos short]
        exact serve_atEnd state sent (readFrame_header short)
  | cons frame frames ih =>
      have joined : chunks.flatten = frame ++ (frames.flatten ++ rest) := by
        rw [split.joined, List.flatten_cons, List.append_assoc]
      have sized := split.wellSized frame List.mem_cons_self
      have bounds := (frameSize_bounds sized).1
      have within : frame.length ≤ chunks.flatten.length := by
        rw [joined, List.length_append]
        exact Nat.le_add_right ..
      have declared : frameSize chunks.flatten = .ok frame.length := by
        rw [← frameSize_take bounds within, joined, List.take_left]
        exact sized
      obtain ⟨left, read, remains⟩ := ((readFrame_body ending
        (Nat.le_trans bounds within)).2 _ declared).2 within
      rw [joined, List.take_left] at read
      rw [joined, List.drop_left] at remains
      have splits : Splits left.flatten frames rest :=
        ⟨remains, fun other member => split.wellSized other (List.mem_cons_of_mem _ member),
          split.incomplete⟩
      rw [serve_frame state sent read, served, refusal]
      dsimp only
      split
      next => rfl
      next => rw [ih splits]

end

/-- What the responder loop is for: the handler sees each frame once, in order, and its response
goes out before the next frame is read. The loop returns without an error only behind the last byte
of a frame, and unless the transport refused a response. -/
structure ServesAll (events expected : List ServeEvent)
    (result : Option (Except TpmDeviceError Unit)) (refusal : Option IoError)
    (ending : Ending IoError) (rest : Bytes) : Prop where
  events : events = expected
  refused : ∀ e, refusal = some e → result = some (.error (.io e))
  ok_iff : result = some (.ok ()) ↔ refusal = none ∧ ending = .closed ∧ rest = []
  truncated : refusal = none → ending = .closed → Truncated rest → ∃ e, result = some (.error e)

theorem servedRest_eq_ok {ending : Ending IoError} {rest : Bytes} :
    servedRest ending rest = some (.ok ()) ↔
      ending = .closed ∧ (rest = [] ∨ Truncated rest) := by
  have atEnd : servedEnd ending = some (.ok ()) ↔ ending = .closed := by
    cases ending <;> simp [servedEnd]
  unfold servedRest Truncated
  by_cases header : rest.length < tpmHeaderSize
  · simp only [header, if_true, atEnd, true_or, and_true]
    exact (and_iff_left (em _)).symm
  · have nonempty : rest ≠ [] := by
      rintro rfl
      exact header (by decide)
    cases sized : frameSize rest with
    | error e => simp [header, nonempty]
    | ok size => simp [header, nonempty, atEnd]

/-- The loop does what it is for exactly on the streams that do not end in the middle of a frame. -/
theorem serve_servesAll_iff {η : Type} (handler : η → Bytes → Bytes × η)
    (sink : List Bytes → Option IoError) (ending : Ending IoError) (chunks : List Bytes) (state : η)
    (sent : List Bytes) :
    (∃ frames rest, Splits chunks.flatten frames rest) ∧
    ∀ frames rest, Splits chunks.flatten frames rest →
      (ServesAll (serve handler sink ending chunks state sent).1
        (served handler sink state sent frames) (serve handler sink ending chunks state sent).2
        (refusal handler sink state sent frames) ending rest ↔
          ¬ (refusal handler sink state sent frames = none ∧ ending = .closed ∧
            Truncated rest)) := by
  refine ⟨exists_splits _, fun frames rest split => ?_⟩
  rw [serve_splits split]
  cases refusal handler sink state sent frames with
  | some e =>
      simp only [reduceCtorEq, false_and, not_false_eq_true, iff_true]
      refine ⟨rfl, ?_, by simp, by simp⟩
      rintro _ ⟨⟩
      rfl
  | none =>
      dsimp only
      constructor
      · rintro ⟨-, -, -, reported⟩ ⟨-, rfl, truncated⟩
        obtain ⟨e, failed⟩ := reported rfl rfl truncated
        rw [servedRest_eq_ok.mpr ⟨rfl, .inr truncated⟩] at failed
        cases failed
      · intro whole
        refine ⟨rfl, fun _ isSome => (Option.some_ne_none _ isSome.symm).elim, ?_,
          fun _ closed truncated => (whole ⟨rfl, closed, truncated⟩).elim⟩
        rw [servedRest_eq_ok]
        constructor
        · rintro ⟨closed, empty | truncated⟩
          · exact ⟨rfl, closed, empty⟩
          · exact (whole ⟨rfl, closed, truncated⟩).elim
        · rintro ⟨-, closed, empty⟩
          exact ⟨closed, .inl empty⟩

/-- A frame that is a header alone, in two chunks. -/
def sampleChunks : List Bytes := [[0x80, 0x01, 0, 0], [0, 10, 0, 0, 0x01, 0x44]]

theorem sampleChunks_splits : Splits sampleChunks.flatten [sampleChunks.flatten] [] where
  joined := rfl
  wellSized := by
    rw [List.forall_mem_singleton, WellSized]
    decide +kernel
  incomplete := fun _ header _ => absurd header (by decide)

theorem serve_servesAll_sample :
    ServesAll (serve (fun (n : Nat) _ => ([], n + 1)) (fun _ => none) .closed sampleChunks 0 []).1
      (served (fun (n : Nat) _ => ([], n + 1)) (fun _ => none) 0 [] [sampleChunks.flatten])
      (serve (fun (n : Nat) _ => ([], n + 1)) (fun _ => none) .closed sampleChunks 0 []).2
      none .closed [] :=
  ((serve_servesAll_iff _ _ _ _ _ _).2 _ _ sampleChunks_splits).mpr
    fun truncated => truncated.2.2.1 rfl

/-- A stream of a single byte is taken for a clean disconnect. -/
theorem serve_servesAll_fails : ¬ ∀ (handler : Nat → Bytes → Bytes × Nat)
    (sink : List Bytes → Option IoError) ending chunks state sent frames rest,
    Splits chunks.flatten frames rest →
      ServesAll (serve handler sink ending chunks state sent).1
        (served handler sink state sent frames) (serve handler sink ending chunks state sent).2
        (refusal handler sink state sent frames) ending rest := by
  intro claim
  have split : Splits ([[0x80]] : List Bytes).flatten [] [0x80] :=
    ⟨rfl, by simp, fun _ header _ => absurd header (by decide)⟩
  have truncated : Truncated [0x80] := ⟨by simp, .inl (by decide)⟩
  have serves := claim (fun n _ => ([], n)) (fun _ => none) .closed [[0x80]] 0 [] _ _ split
  obtain ⟨e, failed⟩ := serves.truncated rfl rfl truncated
  rw [serve_splits split, refusal, servedRest_eq_ok.mpr ⟨rfl, .inr truncated⟩] at failed
  cases failed

end Tpm2
