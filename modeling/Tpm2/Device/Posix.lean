import Tpm2.Device.Responder

/-! Reception from a character device, which hands over a frame in chunks of its own choice: the
frame that comes out is the one that reading a stream of the same bytes gives. -/

namespace Tpm2

open ByteCodec

/-- What reading from a device that is ready comes to. -/
inductive FileRead
  | bytes (chunk : Bytes)
  | wouldBlock
  | interrupted
  | fails (e : IoError)

/-- What polling a device file reports, with what the read gives where it is ready. -/
inductive Polled
  | eintr
  | fails (e : IoError)
  | noEvents
  | events (error readable hungUp : Bool) (read : FileRead)

/-- `TpmPosixDevice::receive`: the bytes that it puts into its buffer, of which there may be
none. -/
def Polled.receive : Polled → Except TpmDeviceError Bytes
  | .eintr => .ok []
  | .fails e => .error (.io e)
  | .noEvents => .ok []
  | .events error readable hungUp read =>
      if error then
        .error .unexpectedEof
      else if readable then
        match read with
        | .bytes [] => .error .unexpectedEof
        | .bytes chunk => .ok chunk
        | .wouldBlock => .ok []
        | .interrupted => .ok []
        | .fails e => .error (.io e)
      else if hungUp then
        .error .unexpectedEof
      else
        .ok []

/-- What happens in one turn of the reception loop, up to the bytes that are received. -/
structure Turn where
  interrupted : Bool
  elapsed : Bool
  polled : Polled

def Turn.received (turn : Turn) : Except TpmDeviceError Bytes :=
  if turn.interrupted then
    .error .interrupted
  else if turn.elapsed then
    .error .timeout
  else
    turn.polled.receive

/-- The size of the frame as far as it is known: it is looked up once the header is there. -/
def knownSize (buf : Bytes) (totalSize : Option Nat) : Except TpmDeviceError (Option Nat) :=
  if totalSize.isNone ∧ buf.length ≥ tpmHeaderSize then
    (frameSize buf).map some
  else
    .ok totalSize

/-- The loop of `TpmPosixDevice::recv`; it has no result where it goes on behind all turns. -/
def recvLoop (buf : Bytes) (totalSize : Option Nat) : List Turn → Reading (Bytes × List Turn)
  | [] => ExceptT.mk none
  | turn :: turns => do
      let chunk ← ExceptT.mk (some turn.received)
      let buf := buf ++ chunk
      let totalSize ← ExceptT.mk (some (knownSize buf totalSize))
      match totalSize with
      | some size =>
          if buf.length = size then
            return (buf, turns)
          else if buf.length > size then
            throw .trailingData
          else
            recvLoop buf totalSize turns
      | none => recvLoop buf totalSize turns

/-- `TpmPosixDevice::recv`: the frame, and the turns that are left for later calls. -/
def recv (turns : List Turn) : Reading (Bytes × List Turn) := recvLoop [] none turns

/-- A header declares its size wherever the frame goes on. -/
theorem frameSize_append {b : Bytes} (header : tpmHeaderSize ≤ b.length) (more : Bytes) :
    frameSize (b ++ more) = frameSize b := by
  have within : b.length ≤ (b ++ more).length := by
    rw [List.length_append]
    exact Nat.le_add_right ..
  rw [← frameSize_take header within, List.take_left]

/-- What holds whenever the loop goes on: either there is no header yet, or its size is known and
has not been reached. -/
inductive Incomplete (buf : Bytes) : Option Nat → Prop
  | header (short : buf.length < tpmHeaderSize) : Incomplete buf none
  | body {size : Nat} (header : tpmHeaderSize ≤ buf.length) (declared : frameSize buf = .ok size)
      (short : buf.length < size) : Incomplete buf (some size)

/-- Once the header is there, the size is known: an earlier look-up gave the same. -/
theorem Incomplete.knownSize {buf : Bytes} {totalSize : Option Nat}
    (incomplete : Incomplete buf totalSize) (chunk : Bytes) :
    Tpm2.knownSize (buf ++ chunk) totalSize =
      if (buf ++ chunk).length < tpmHeaderSize then .ok none
      else (frameSize (buf ++ chunk)).map some := by
  unfold Tpm2.knownSize
  cases incomplete with
  | header short =>
      by_cases more : (buf ++ chunk).length < tpmHeaderSize
      · have few : ¬ ((none : Option Nat).isNone ∧ (buf ++ chunk).length ≥ tpmHeaderSize) :=
          fun complete => Nat.not_le.mpr more complete.2
        rw [if_pos more, if_neg few]
      · rw [if_neg more, if_pos ⟨rfl, Nat.not_lt.mp more⟩]
  | body header declared short =>
      have enough : ¬ (buf ++ chunk).length < tpmHeaderSize := by
        rw [List.length_append]
        omega
      rw [if_neg enough, if_neg (fun unknown => by cases unknown.1), frameSize_append header,
        declared]
      rfl

section
variable {buf chunk : Bytes} {totalSize : Option Nat} {turn : Turn} {turns : List Turn}

/-- Without a whole header the loop goes on. -/
theorem recvLoop_header (incomplete : Incomplete buf totalSize)
    (received : turn.received = .ok chunk) (short : (buf ++ chunk).length < tpmHeaderSize) :
    recvLoop buf totalSize (turn :: turns) = recvLoop (buf ++ chunk) none turns := by
  have known := incomplete.knownSize chunk
  rw [if_pos short] at known
  rw [recvLoop, received]
  change ExceptT.mk (some (Tpm2.knownSize (buf ++ chunk) totalSize)) >>= _ = _
  rw [known]
  rfl

/-- With a header the loop fails, ends or goes on as the declared size says. -/
theorem recvLoop_body (turns : List Turn) (incomplete : Incomplete buf totalSize)
    (received : turn.received = .ok chunk) (header : tpmHeaderSize ≤ (buf ++ chunk).length) :
    (∀ e, frameSize (buf ++ chunk) = .error e →
      recvLoop buf totalSize (turn :: turns) = throw e) ∧
    ∀ size, frameSize (buf ++ chunk) = .ok size →
      recvLoop buf totalSize (turn :: turns) =
        if (buf ++ chunk).length = size then pure (buf ++ chunk, turns)
        else if (buf ++ chunk).length > size then throw .trailingData
        else recvLoop (buf ++ chunk) (some size) turns := by
  have known := incomplete.knownSize chunk
  rw [if_neg (Nat.not_lt.mpr header)] at known
  constructor
  · intro e failed
    rw [recvLoop, received]
    change ExceptT.mk (some (Tpm2.knownSize (buf ++ chunk) totalSize)) >>= _ = _
    rw [known, failed]
    rfl
  · intro size declared
    rw [recvLoop, received]
    change ExceptT.mk (some (Tpm2.knownSize (buf ++ chunk) totalSize)) >>= _ = _
    rw [known, declared]
    rfl

end

/-- The turns hand over these chunks: none is interrupted, late or a failure. -/
def HandOver (turns : List Turn) (chunks : List Bytes) : Prop :=
  turns.map Turn.received = chunks.map .ok

theorem HandOver.cons {turns : List Turn} {chunk : Bytes} {chunks : List Bytes}
    (handOver : HandOver turns (chunk :: chunks)) :
    ∃ turn turns', turns = turn :: turns' ∧ turn.received = .ok chunk ∧
      HandOver turns' chunks := by
  cases turns with
  | nil => cases handOver
  | cons turn turns' =>
      obtain ⟨first, others⟩ := List.cons.inj handOver
      exact ⟨turn, turns', rfl, first, others⟩

theorem HandOver.nil {turns : List Turn} (handOver : HandOver turns []) : turns = [] :=
  List.map_eq_nil_iff.mp handOver

/-- A frame that comes out is made of the first chunks. -/
theorem recvLoop_sound {chunks : List Bytes} {turns rest : List Turn} {buf frame : Bytes}
    {totalSize : Option Nat} (incomplete : Incomplete buf totalSize)
    (handOver : HandOver turns chunks)
    (ok : (recvLoop buf totalSize turns).run = some (.ok (frame, rest))) :
    ∃ n, buf ++ (chunks.take n).flatten = frame ∧ WellSized frame := by
  induction chunks generalizing turns buf totalSize with
  | nil =>
      rw [handOver.nil] at ok
      cases ok
  | cons chunk chunks ih =>
      obtain ⟨turn, turns', rfl, received, others⟩ := handOver.cons
      have go (totalSize : Option Nat) (incomplete : Incomplete (buf ++ chunk) totalSize)
          (ok : (recvLoop (buf ++ chunk) totalSize turns').run = some (.ok (frame, rest))) :
          ∃ n, buf ++ ((chunk :: chunks).take n).flatten = frame ∧ WellSized frame := by
        obtain ⟨n, made, sized⟩ := ih incomplete others ok
        refine ⟨n + 1, ?_, sized⟩
        rw [List.take_succ_cons, List.flatten_cons, ← List.append_assoc, made]
      by_cases short : (buf ++ chunk).length < tpmHeaderSize
      · rw [recvLoop_header incomplete received short] at ok
        exact go none (.header short) ok
      · have header := Nat.not_lt.mp short
        obtain ⟨fails, goes⟩ := recvLoop_body turns' incomplete received header
        cases declared : frameSize (buf ++ chunk) with
        | error e =>
            rw [fails e declared] at ok
            cases ok
        | ok size =>
            rw [goes size declared] at ok
            split at ok
            next complete =>
              cases ok
              refine ⟨1, ?_, ?_⟩
              · rw [List.take_succ_cons, List.take_zero, List.flatten_singleton]
              · rw [WellSized, declared, complete]
            next =>
              split at ok
              next => cases ok
              next =>
                exact go (some size) (.body header declared (by omega)) ok

/-- A frame that the first chunks make up comes out. -/
theorem recvLoop_complete {n : Nat} {chunks : List Bytes} {turns : List Turn} {buf frame : Bytes}
    {totalSize : Option Nat} (incomplete : Incomplete buf totalSize)
    (handOver : HandOver turns chunks) (made : buf ++ (chunks.take n).flatten = frame)
    (sized : WellSized frame) :
    ∃ rest, (recvLoop buf totalSize turns).run = some (.ok (frame, rest)) := by
  have bound : 10 ≤ frame.length := (frameSize_bounds sized).1
  -- an incomplete frame is not a frame, so that there is a first chunk
  have open_end : buf ≠ frame := by
    rintro rfl
    cases incomplete with
    | header short => exact absurd bound (Nat.not_le.mpr short)
    | body header declared short =>
        have size := Except.ok.inj (declared.symm.trans sized)
        omega
  induction n generalizing chunks turns buf totalSize with
  | zero =>
      rw [List.take_zero, List.flatten_nil, List.append_nil] at made
      exact (open_end made).elim
  | succ n ih =>
      cases chunks with
      | nil =>
          rw [List.take_nil, List.flatten_nil, List.append_nil] at made
          exact (open_end made).elim
      | cons chunk chunks =>
          obtain ⟨turn, turns', rfl, received, others⟩ := handOver.cons
          rw [List.take_succ_cons, List.flatten_cons, ← List.append_assoc] at made
          by_cases short : (buf ++ chunk).length < tpmHeaderSize
          · rw [recvLoop_header incomplete received short]
            have differs : buf ++ chunk ≠ frame := by
              rintro rfl
              exact absurd bound (Nat.not_le.mpr short)
            exact ih (.header short) others made differs
          · have header := Nat.not_lt.mp short
            have declared : frameSize (buf ++ chunk) = .ok frame.length := by
              rw [← frameSize_append header (chunks.take n).flatten, made]
              exact sized
            rw [(recvLoop_body turns' incomplete received header).2 _ declared]
            have length := congrArg List.length made
            rw [List.length_append] at length
            by_cases complete : (buf ++ chunk).length = frame.length
            · have nothing : (chunks.take n).flatten = [] :=
                List.length_eq_zero_iff.mp (by omega)
              rw [nothing, List.append_nil] at made
              rw [if_pos complete, made]
              exact ⟨turns', rfl⟩
            · have within : ¬ (buf ++ chunk).length > frame.length := by omega
              rw [if_neg complete, if_neg within]
              have differs : buf ++ chunk ≠ frame := fun same => complete (congrArg _ same)
              exact ih (.body header declared (by omega)) others made differs

/-- A chunk that crosses the end of the frame is reported. -/
theorem recvLoop_trailing {n size : Nat} {chunk : Bytes} {chunks : List Bytes} {turns : List Turn}
    {buf : Bytes} {totalSize : Option Nat} (incomplete : Incomplete buf totalSize)
    (handOver : HandOver turns chunks) (crossing : chunks[n]? = some chunk)
    (declared : frameSize (buf ++ (chunks.take n).flatten ++ chunk) = .ok size)
    (before : (buf ++ (chunks.take n).flatten).length < size)
    (behind : size < (buf ++ (chunks.take n).flatten ++ chunk).length) :
    (recvLoop buf totalSize turns).run = some (.error .trailingData) := by
  have bound := (frameSize_bounds declared).1
  induction n generalizing chunks turns buf totalSize with
  | zero =>
      cases chunks with
      | nil => cases crossing
      | cons first chunks =>
          cases crossing
          obtain ⟨turn, turns', rfl, received, others⟩ := handOver.cons
          rw [List.take_zero, List.flatten_nil, List.append_nil] at declared before behind
          have header : tpmHeaderSize ≤ (buf ++ chunk).length := by omega
          have longer : ¬ (buf ++ chunk).length = size := by omega
          rw [(recvLoop_body turns' incomplete received header).2 size declared,
            if_neg longer, if_pos behind]
          rfl
  | succ n ih =>
      cases chunks with
      | nil => cases crossing
      | cons first chunks =>
          obtain ⟨turn, turns', rfl, received, others⟩ := handOver.cons
          rw [List.take_succ_cons, List.flatten_cons, ← List.append_assoc] at declared before behind
          by_cases short : (buf ++ first).length < tpmHeaderSize
          · rw [recvLoop_header incomplete received short]
            exact ih (.header short) others crossing declared before behind
          · have header := Nat.not_lt.mp short
            have known : frameSize (buf ++ first) = .ok size := by
              rw [← frameSize_append header ((chunks.take n).flatten ++ chunk),
                ← List.append_assoc]
              exact declared
            rw [List.length_append] at before
            have incomplete' : ¬ (buf ++ first).length = size := by omega
            have within : ¬ (buf ++ first).length > size := by omega
            rw [(recvLoop_body turns' incomplete received header).2 size known,
              if_neg incomplete', if_neg within]
            rw [← List.length_append] at before
            exact ih (.body header known (by omega)) others crossing declared before behind

/-- Reading a stream of the same bytes gives the same frame. -/
theorem readFrame_of_take {ending : Ending IoError} {chunks : List Bytes} {n : Nat} {frame : Bytes}
    (made : (chunks.take n).flatten = frame) (sized : WellSized frame) :
    ∃ rest, (readFrame ending chunks).run = some (.ok (frame, rest)) := by
  have split : chunks.flatten = frame ++ (chunks.drop n).flatten := by
    rw [← made, ← List.flatten_append, List.take_append_drop]
  have bound : tpmHeaderSize ≤ frame.length := (frameSize_bounds sized).1
  have declared : frameSize chunks.flatten = .ok frame.length := by
    rw [split, frameSize_append bound]
    exact sized
  have within : frame.length ≤ chunks.flatten.length := by
    rw [split, List.length_append]
    exact Nat.le_add_right ..
  obtain ⟨-, whole⟩ := (readFrame_body ending (Nat.le_trans bound within)).2 _ declared
  obtain ⟨rest, read, -⟩ := whole within
  refine ⟨rest, ?_⟩
  rw [read, split, List.take_left]
  rfl

theorem incomplete_nil : Incomplete [] none := .header (by decide)

/-- However a device cuts up the bytes that it hands over: the reception gives a frame if and only
if the first chunks are exactly that frame; it reports a chunk that crosses the end of the frame;
and a frame that it gives is the one that reading a stream of the same bytes gives. -/
theorem recv_agrees_with_readFrame (turns : List Turn) (chunks : List Bytes)
    (handOver : HandOver turns chunks) :
    (∀ frame, (∃ rest, (recv turns).run = some (.ok (frame, rest))) ↔
      ∃ n, (chunks.take n).flatten = frame ∧ WellSized frame) ∧
    (∀ n chunk size, chunks[n]? = some chunk →
      frameSize ((chunks.take n).flatten ++ chunk) = .ok size →
      (chunks.take n).flatten.length < size →
      size < ((chunks.take n).flatten ++ chunk).length →
      (recv turns).run = some (.error .trailingData)) ∧
    ∀ frame rest, (recv turns).run = some (.ok (frame, rest)) →
      ∀ ending, ∃ rest', (readFrame ending chunks).run = some (.ok (frame, rest')) := by
  refine ⟨fun frame => ⟨?_, ?_⟩, ?_, ?_⟩
  · rintro ⟨rest, ok⟩
    obtain ⟨n, made, sized⟩ := recvLoop_sound incomplete_nil handOver ok
    exact ⟨n, made, sized⟩
  · rintro ⟨n, made, sized⟩
    exact recvLoop_complete incomplete_nil handOver made sized
  · intro n chunk size crossing declared before behind
    exact recvLoop_trailing incomplete_nil handOver crossing declared before behind
  · intro frame rest ok ending
    obtain ⟨n, made, sized⟩ := recvLoop_sound incomplete_nil handOver ok
    exact readFrame_of_take made sized

/-- A frame of twelve bytes that arrives in three reads, with nothing to read in between. -/
theorem recv_agrees_with_readFrame_split :
    ∃ rest, (recv [⟨false, false, .events false true false (.bytes [0x80, 1, 0, 0])⟩,
        ⟨false, false, .noEvents⟩,
        ⟨false, false, .events false true false (.bytes [0, 12, 0, 0, 0])⟩,
        ⟨false, false, .events false true false (.bytes [0, 7, 8])⟩]).run =
      some (.ok ([0x80, 1, 0, 0, 0, 12, 0, 0, 0, 0, 7, 8], rest)) :=
  ((recv_agrees_with_readFrame _ [[0x80, 1, 0, 0], [], [0, 12, 0, 0, 0], [0, 7, 8]]
    (by unfold HandOver; rfl)).1 _).mpr ⟨4, rfl, by unfold WellSized; rfl⟩

end Tpm2
