import RubyLzws.Ext.Stream

/-!
# What an open stream object is for

An open object is a channel: a codec in some state, and the output that nobody
has read yet.  Each method is inverted once: what it can do to the channel, and
what it leaves alone.  Nothing that C leaves undefined can follow.
-/

namespace RubyLzws.Ext

open Library Library.Transducer

variable {σ ε ω : Type} {p : Platform}

/-! ## Channels -/

/-- The abstract contents of an open object; what is pending fits its buffer. -/
structure Channel (σ : Type) where
  state : σ
  pending : List Byte
  capacity : Nat
  gvl : Bool
  pending_le : pending.length ≤ capacity

namespace Channel

/-- The length of the window that the next codec call is offered. -/
def window (channel : Channel σ) : Nat := channel.capacity - channel.pending.length

/-- The answer of the codec if it is shown `source` now. -/
def reply (channel : Channel σ) (native : Native σ Byte Byte ε) (source : List Byte) :
    Reply σ Byte ε source.length channel.window :=
  native channel.state source channel.window

/-- What the codec writes is pending behind what was pending before. -/
def feed (channel : Channel σ) (native : Native σ Byte Byte ε) (source : List Byte) :
    Channel σ where
  state := (channel.reply native source).state
  pending := channel.pending ++ (channel.reply native source).written
  capacity := channel.capacity
  gvl := channel.gvl
  pending_le := by
    have bound := (channel.reply native source).written_le
    have fits := channel.pending_le
    simp only [window] at bound
    simp only [List.length_append]
    omega

/-- Everything pending has been read. -/
def drain (channel : Channel σ) : Channel σ :=
  { channel with
    pending := []
    pending_le := Nat.zero_le _ }

/-- A channel nobody has used. -/
def fresh (state : σ) (capacity : Nat) (gvl : Bool) : Channel σ where
  state := state
  pending := []
  capacity := capacity
  gvl := gvl
  pending_le := Nat.zero_le _

/-- The record of the call that shows `source` to the codec now. -/
def record (channel : Channel σ) (native : Native σ Byte Byte ε) (source : List Byte) :
    CodecCall where
  source := source
  window := channel.window
  consumed := (channel.reply native source).consumed
  written := (channel.reply native source).written

@[simp]
theorem feed_pending (channel : Channel σ) (native : Native σ Byte Byte ε) (source : List Byte) :
    (channel.feed native source).pending =
      channel.pending ++ (channel.reply native source).written := rfl

@[simp]
theorem feed_capacity (channel : Channel σ) (native : Native σ Byte Byte ε) (source : List Byte) :
    (channel.feed native source).capacity = channel.capacity := rfl

@[simp]
theorem drain_pending (channel : Channel σ) : channel.drain.pending = [] := rfl

@[simp]
theorem drain_window (channel : Channel σ) : channel.drain.window = channel.capacity := rfl

/--
In a buffer that holds every unit, a codec that asks for more destination leaves
something pending: it wrote, or what was pending before took the room.
-/
theorem feed_pending_pos {channel : Channel σ} {native : Native σ Byte Byte ε} {units : Nat}
    {source : List Byte} (law : UnitsAtMost native units) (enough : units ≤ channel.capacity)
    (more : (channel.reply native source).status = .needsMore) :
    0 < (channel.feed native source).pending.length := by
  have full : channel.window < (channel.reply native source).written.length + units :=
    law _ _ _ more
  have fits := channel.pending_le
  have room : channel.window = channel.capacity - channel.pending.length := rfl
  rw [feed_pending, List.length_append]
  omega

end Channel

/-! ## Objects that represent a channel -/

/-- The struct and the memory it points into hold the contents of a channel. -/
structure OpenAt (object : Option NativeStream) (states : Arena σ) (buffers : Arena (Block p))
    (channel : Channel σ) (stream : NativeStream) (stateHandle bufferHandle : Nat)
    (contents : Block p) : Prop where
  object : object = some stream
  statePtr : stream.statePtr = some stateHandle
  state : states.cell stateHandle = some channel.state
  destinationBuffer : stream.destinationBuffer = some bufferHandle
  block : buffers.cell bufferHandle = some contents
  capacity : contents.length = channel.capacity
  length : stream.destinationBufferLength = channel.capacity
  cursor : stream.remainingDestinationBuffer = some ⟨bufferHandle, channel.pending.length⟩
  remaining : stream.remainingDestinationBufferLength = channel.window
  pending : contents.bytes.take channel.pending.length = channel.pending
  gvl : stream.gvl = channel.gvl

/-- The object is open and holds the contents of a channel. -/
def World.Opens (world : World σ p) (channel : Channel σ) : Prop :=
  ∃ stream stateHandle bufferHandle contents, OpenAt world.object world.states world.buffers
    channel stream stateHandle bufferHandle contents

/-- The object has never been initialised, or has been closed. -/
def World.Closes (world : World σ p) : Prop :=
  ∃ stream, world.object = some stream ∧ stream.statePtr = none ∧
    stream.destinationBuffer = none

/-- The handles that the struct stores. -/
def World.stored (world : World σ p) : Option (Option Nat × Option Nat) :=
  world.object.map fun stream => (stream.statePtr, stream.destinationBuffer)

/-- The same handles are live and stored. -/
structure SameHandles (before after : World σ p) : Prop where
  states : ∀ handle, after.states.Live handle ↔ before.states.Live handle
  buffers : ∀ handle, after.buffers.Live handle ↔ before.buffers.Live handle
  stored : after.stored = before.stored

theorem SameHandles.refl (world : World σ p) : SameHandles world world :=
  ⟨fun _ => .rfl, fun _ => .rfl, rfl⟩

/-- What a method that ran the codec once did. -/
structure Ran (before : World σ p) (channel : Channel σ) (native : Native σ Byte Byte ε)
    (source : List Byte) (after : World σ p) : Prop where
  opens : after.Opens (channel.feed native source)
  handles : SameHandles before after
  calls : after.calls = before.calls ++ [channel.record native source]
  later : before.environment.Later after.environment

/-- What a method that did not run the codec left alone. -/
structure Idle (before : World σ p) (channel : Channel σ) (after : World σ p) : Prop where
  opens : after.Opens channel
  handles : SameHandles before after
  calls : after.calls = before.calls
  later : before.environment.Later after.environment

/-! ## Codec calls -/

/-- The codec writes inside the block, behind what is pending. -/
theorem World.runNative_open (world : World σ p) {channel : Channel σ} {stream : NativeStream}
    {stateHandle bufferHandle : Nat} {contents : Block p} (native : Native σ Byte Byte ε)
    (source : List Byte)
    (opened : OpenAt world.object world.states world.buffers channel stream stateHandle
      bufferHandle contents) :
    ∃ run, world.runNative stream native source = some run ∧
      Ran world channel native source run.world ∧
      run.world.environment = world.environment ∧
      run.remainingSourceLength = source.length - (channel.reply native source).consumed ∧
      run.result = (channel.reply native source).status := by
  -- The type of an answer mentions the window, so the fields are replaced, not rewritten.
  rcases stream with ⟨statePtr, destinationBuffer, length, cursor, remaining, gvl⟩
  obtain rfl : statePtr = some stateHandle := opened.statePtr
  obtain rfl : cursor = some ⟨bufferHandle, channel.pending.length⟩ := opened.cursor
  obtain rfl : remaining = channel.window := opened.remaining
  have fits := channel.pending_le
  have writes := (channel.reply native source).written_le
  have room : channel.pending.length + channel.window = contents.length := by
    rw [Channel.window, opened.capacity]
    omega
  have inside : channel.pending.length + (channel.reply native source).written.length ≤
      contents.length := by omega
  have stateLive := Arena.live_of_cell opened.state
  have bufferLive := Arena.live_of_cell opened.block
  obtain ⟨states, stateSet, statesAfter⟩ :=
    Arena.exists_set stateLive (channel.reply native source).state
  obtain ⟨buffers, bufferSet, buffersAfter⟩ := Arena.exists_set bufferLive
    (contents.write channel.pending.length (channel.reply native source).written)
  refine ⟨{
    world := { world with
      states := states
      buffers := buffers
      object := some {
        statePtr := some stateHandle
        destinationBuffer := destinationBuffer
        destinationBufferLength := length
        remainingDestinationBuffer := some ⟨bufferHandle,
          channel.pending.length + (channel.reply native source).written.length⟩
        remainingDestinationBufferLength :=
          channel.window - (channel.reply native source).written.length
        gvl := gvl }
      calls := world.calls ++ [channel.record native source] }
    remainingSourceLength := source.length - (channel.reply native source).consumed
    result := (channel.reply native source).status }, ?_, ?_, rfl, rfl, rfl⟩
  · unfold Channel.reply at stateSet bufferSet
    simp only [runNative, opened.state, opened.block, Option.bind_eq_bind, Option.bind_some, room,
      Nat.le_refl, ↓reduceIte, stateSet, bufferSet]
    rfl
  · constructor
    · have capacity : (contents.write channel.pending.length
          (channel.reply native source).written).length = channel.capacity :=
        (RString.write_length _ _ _ inside).trans opened.capacity
      have written : (contents.write channel.pending.length
          (channel.reply native source).written).bytes.take (channel.feed native source).pending.length =
            (channel.feed native source).pending := by
        simp [RString.write_take _ inside, opened.pending]
      exact ⟨_, stateHandle, bufferHandle, _, {
        object := rfl
        statePtr := rfl
        state := statesAfter.cell_self
        destinationBuffer := opened.destinationBuffer
        block := buffersAfter.cell_self
        capacity := capacity
        length := opened.length
        cursor := by simp
        remaining := by simp [Channel.window, Nat.sub_sub]
        pending := written
        gvl := opened.gvl }⟩
    · constructor
      · exact statesAfter.live_iff stateLive
      · exact buffersAfter.live_iff bufferLive
      · simp [World.stored, opened.object]
    · rfl
    · exact .refl _

/-- The ways in which a wrapped codec call can go. -/
inductive Wrapped (before : World σ p) (channel : Channel σ) (native : Native σ Byte Byte ε)
    (source : List Byte) (next : NativeRun σ ε p → Effect σ p) : Effect σ p → Prop where
  | notRun {after : World σ p} (idle : Idle before channel after)
      (unquiet : ¬ before.environment.Quiet) :
      Wrapped before channel native source next (.raised .interrupt after)
  | interrupted {after : World σ p} (ran : Ran before channel native source after)
      (unquiet : ¬ before.environment.Quiet) :
      Wrapped before channel native source next (.raised .interrupt after)
  | finished {run : NativeRun σ ε p} (ran : Ran before channel native source run.world)
      (remaining : run.remainingSourceLength =
        source.length - (channel.reply native source).consumed)
      (result : run.result = (channel.reply native source).status) :
      Wrapped before channel native source next (next run)

theorem World.wrapNative_open {world : World σ p} {channel : Channel σ} {stream : NativeStream}
    {stateHandle bufferHandle : Nat} {contents : Block p} (native : Native σ Byte Byte ε)
    (source : List Byte) (next : NativeRun σ ε p → Effect σ p)
    (opened : OpenAt world.object world.states world.buffers channel stream stateHandle
      bufferHandle contents) :
    Wrapped world channel native source next (world.wrapNative stream native source next) := by
  have later := later_gvlWrap p stream.gvl world.environment
  have quiet := fun quiet : world.environment.Quiet => quiet.gvlWrap p stream.gvl
  unfold World.wrapNative World.afterWrap
  generalize gvlWrap p stream.gvl world.environment = wrapped at later quiet ⊢
  rcases wrapped with ⟨delivery, env⟩
  -- Memory is what it was before the environment was asked.
  obtain ⟨run, executed, ran, sameEnv, remaining, result⟩ :=
    World.runNative_open { world with environment := env } native source opened
  have moved : Ran world channel native source run.world := by
    constructor
    · exact ran.opens
    · exact ⟨ran.handles.states, ran.handles.buffers, ran.handles.stored⟩
    · exact ran.calls
    · rw [sameEnv]
      exact later
  cases delivery with
  | before =>
      refine .notRun ?_ fun calm => by cases quiet calm
      constructor
      · exact ⟨_, _, _, _, opened⟩
      · exact ⟨fun _ => .rfl, fun _ => .rfl, rfl⟩
      · rfl
      · exact later
  | after =>
      simp only [executed]
      exact .interrupted moved fun calm => by cases quiet calm
  | nothing =>
      simp only [executed]
      exact .finished moved remaining result

/-- Everything a method that calls the codec can do to an open object. -/
inductive CallResult (answer : Nat → Bool → Answer p) (resultOf : ε → ExtError)
    (before : World σ p) (channel : Channel σ) (native : Native σ Byte Byte ε)
    (source : List Byte) : Effect σ p → Prop where
  | notRun {after : World σ p} (idle : Idle before channel after)
      (unquiet : ¬ before.environment.Quiet) :
      CallResult answer resultOf before channel native source (.raised .interrupt after)
  | interrupted {after : World σ p} (ran : Ran before channel native source after)
      (unquiet : ¬ before.environment.Quiet) :
      CallResult answer resultOf before channel native source (.raised .interrupt after)
  | noMemory {after : World σ p} (ran : Ran before channel native source after)
      (unquiet : ¬ before.environment.Quiet) :
      CallResult answer resultOf before channel native source (.raised .noMemoryError after)
  | failed {after : World σ p} {code : ε} (ran : Ran before channel native source after)
      (status : (channel.reply native source).status = .error code) :
      CallResult answer resultOf before channel native source
        (.raised (lzwsExtRaiseError (resultOf code)) after)
  | done {after : World σ p} (ran : Ran before channel native source after)
      (status : (channel.reply native source).status = .ok) :
      CallResult answer resultOf before channel native source
        (.returned (answer (channel.reply native source).consumed false) after)
  | needsMore {after : World σ p} (ran : Ran before channel native source after)
      (status : (channel.reply native source).status = .needsMore) :
      CallResult answer resultOf before channel native source
        (.returned (answer (channel.reply native source).consumed true) after)

theorem withStream_open {world : World σ p} {channel : Channel σ} {stream : NativeStream}
    {stateHandle bufferHandle : Nat} {contents : Block p} (method : NativeStream → Effect σ p)
    (opened : OpenAt world.object world.states world.buffers channel stream stateHandle
      bufferHandle contents) : withStream world method = method stream := by
  simp [withStream, opened.object, opened.statePtr, opened.destinationBuffer]

theorem withStream_closed {world : World σ p} (method : NativeStream → Effect σ p)
    (closed : world.Closes) :
    withStream world method = .raised (lzwsExtRaiseError .usedAfterClose) world := by
  obtain ⟨stream, object, statePtr, _⟩ := closed
  simp [withStream, object, statePtr]

/-- Asking the environment once more changes nothing else. -/
theorem Ran.withEnvironment {before after : World σ p} {channel : Channel σ}
    {native : Native σ Byte Byte ε} {source : List Byte} {env : Environment}
    (ran : Ran before channel native source after) (later : after.environment.Later env) :
    Ran before channel native source { after with environment := env } := by
  constructor
  · exact ran.opens
  · exact ⟨ran.handles.states, ran.handles.buffers, ran.handles.stored⟩
  · exact ran.calls
  · exact ran.later.trans later

/-- `rb_ary_new_from_args` hands out the count of consumed bytes, or raises. -/
theorem returnProgress_cases {run : NativeRun σ ε p} {sourceLength consumed : Nat}
    (fits : sourceLength < p.sizeModulus) (bound : consumed ≤ sourceLength)
    (remaining : run.remainingSourceLength = sourceLength - consumed) (needsMore : Bool) :
    ∃ env, run.world.environment.Later env ∧
      (returnProgress sourceLength needsMore run =
          .returned (.progress consumed needsMore) { run.world with environment := env } ∨
        returnProgress sourceLength needsMore run =
          .raised .noMemoryError { run.world with environment := env } ∧
          ¬ run.world.environment.Quiet) := by
  have count : p.sizeSub sourceLength run.remainingSourceLength = consumed := by
    rw [remaining, p.sizeSub_eq (Nat.sub_le _ _) fits]
    omega
  have later := run.world.environment.later_nextArrayFailure
  have quiet := fun quiet : run.world.environment.Quiet => quiet.nextArrayFailure
  unfold returnProgress
  generalize run.world.environment.nextArrayFailure = answered at later quiet ⊢
  rcases answered with ⟨raises, env⟩
  refine ⟨env, later, ?_⟩
  cases raises with
  | false => exact .inl (by simp [count])
  | true => exact .inr ⟨rfl, fun calm => by cases quiet calm⟩

/-- **What `write` and `read` do to an open object.** -/
theorem callStream_open {world : World σ p} {channel : Channel σ}
    (native : Native σ Byte Byte ε) (resultOf : ε → ExtError) (source : RString p)
    (opens : world.Opens channel) :
    CallResult .progress resultOf world channel native source.bytes
      (callStream native resultOf (.string source) world) := by
  obtain ⟨stream, stateHandle, bufferHandle, contents, opened⟩ := opens
  unfold callStream
  rw [withStream_open _ opened]
  simp only [checkString]
  have wrapped := World.wrapNative_open native source.bytes
    (answerCall resultOf source.length) opened
  generalize world.wrapNative stream native source.bytes (answerCall resultOf source.length) =
    effect at wrapped ⊢
  cases wrapped with
  | notRun idle unquiet => exact .notRun idle unquiet
  | interrupted ran unquiet => exact .interrupted ran unquiet
  | @finished run ran remaining result =>
      have fits : source.bytes.length < p.sizeModulus := source.length_lt_sizeModulus
      have bound := (channel.reply native source.bytes).consumed_le
      have progress := returnProgress_cases fits bound remaining
      unfold answerCall
      rw [result]
      cases status : (channel.reply native source.bytes).status with
      | error code => exact .failed ran status
      | ok =>
          obtain ⟨env, later, returned | ⟨raised, unquiet⟩⟩ := progress false
          · simp only [RString.length, returned]
            exact .done (ran.withEnvironment later) status
          · simp only [RString.length, raised]
            exact .noMemory (ran.withEnvironment later) fun calm => unquiet (calm.later ran.later)
      | needsMore =>
          obtain ⟨env, later, returned | ⟨raised, unquiet⟩⟩ := progress true
          · simp only [RString.length, returned]
            exact .needsMore (ran.withEnvironment later) status
          · simp only [RString.length, raised]
            exact .noMemory (ran.withEnvironment later) fun calm => unquiet (calm.later ran.later)

/-- A value that is not a String is refused before anything else happens. -/
theorem callStream_not_string {world : World σ p} {channel : Channel σ}
    (native : Native σ Byte Byte ε) (resultOf : ε → ExtError) {sourceValue : Value p}
    (opens : world.Opens channel) (refused : ∀ source, sourceValue ≠ .string source) :
    callStream native resultOf sourceValue world = .raised .typeError world := by
  obtain ⟨stream, stateHandle, bufferHandle, contents, opened⟩ := opens
  unfold callStream
  rw [withStream_open _ opened]
  cases sourceValue with
  | string source => exact absurd rfl (refused source)
  | _ => rfl

/-- **What `finish` does to an open object.** -/
theorem finishStream_open {world : World σ p} {channel : Channel σ} (finish : Finish σ Byte ε)
    (resultOf : ε → ExtError) (opens : world.Opens channel) :
    CallResult (fun _ => .needsMoreDestination) resultOf world channel (Native.ofFinish finish) []
      (finishStream finish resultOf world) := by
  obtain ⟨stream, stateHandle, bufferHandle, contents, opened⟩ := opens
  unfold finishStream
  rw [withStream_open _ opened]
  have wrapped := World.wrapNative_open (Native.ofFinish finish) [] (answerFinish resultOf) opened
  generalize world.wrapNative stream (Native.ofFinish finish) [] (answerFinish resultOf) =
    effect at wrapped ⊢
  cases wrapped with
  | notRun idle unquiet => exact .notRun idle unquiet
  | interrupted ran unquiet => exact .interrupted ran unquiet
  | @finished run ran remaining result =>
      unfold answerFinish
      rw [result]
      cases status : (channel.reply (Native.ofFinish finish) []).status with
      | error code => exact .failed ran status
      | ok => exact .done ran status
      | needsMore => exact .needsMore ran status

/-! ## Results -/

/-- What a method that read the result did. -/
structure Drained (before : World σ p) (channel : Channel σ) (after : World σ p) : Prop where
  opens : after.Opens channel.drain
  handles : SameHandles before after
  calls : after.calls = before.calls
  later : before.environment.Later after.environment

/-- Everything `read_result` can do to an open object. -/
inductive ReadResult (before : World σ p) (channel : Channel σ) : Effect σ p → Prop where
  | noMemory {after : World σ p} (idle : Idle before channel after)
      (unquiet : ¬ before.environment.Quiet) :
      ReadResult before channel (.raised .noMemoryError after)
  | returned {after : World σ p} {result : RString p} (drained : Drained before channel after)
      (bytes : result.bytes = channel.pending) :
      ReadResult before channel (.returned (.string result) after)

/-- The struct after `read_result` has set the cursor back. -/
def NativeStream.rewind (stream : NativeStream) (bufferHandle : Nat) : NativeStream :=
  { stream with
    remainingDestinationBuffer := some ⟨bufferHandle, 0⟩
    remainingDestinationBufferLength := stream.destinationBufferLength }

/-- With the cursor set back, the object holds the drained channel. -/
theorem OpenAt.rewind {object : Option NativeStream} {states : Arena σ} {buffers : Arena (Block p)}
    {channel : Channel σ} {stream : NativeStream} {stateHandle bufferHandle : Nat}
    {contents : Block p}
    (opened : OpenAt object states buffers channel stream stateHandle bufferHandle contents) :
    OpenAt (some (stream.rewind bufferHandle)) states buffers channel.drain
      (stream.rewind bufferHandle) stateHandle bufferHandle contents where
  object := rfl
  statePtr := opened.statePtr
  state := opened.state
  destinationBuffer := opened.destinationBuffer
  block := opened.block
  capacity := opened.capacity
  length := opened.length
  cursor := rfl
  remaining := opened.length
  pending := rfl
  gvl := opened.gvl

/-- On an open object, `read_result` copies what is pending, if memory suffices. -/
theorem readResultStream_eq {world : World σ p} {channel : Channel σ} {stream : NativeStream}
    {stateHandle bufferHandle : Nat} {contents : Block p}
    (opened : OpenAt world.object world.states world.buffers channel stream stateHandle
      bufferHandle contents) :
    readResultStream world =
      if world.environment.nextStringFailure.1 then
        .raised .noMemoryError { world with environment := world.environment.nextStringFailure.2 }
      else
        .returned (.string (contents.front channel.pending.length)) { world with
          environment := world.environment.nextStringFailure.2
          object := some (stream.rewind bufferHandle) } := by
  have fits := channel.pending_le
  have size := contents.length_lt_sizeModulus
  have capacity := opened.capacity
  have resultLength : p.sizeSub stream.destinationBufferLength
      stream.remainingDestinationBufferLength = channel.pending.length := by
    rw [opened.length, opened.remaining, Channel.window,
      p.sizeSub_eq (Nat.sub_le _ _) (by omega)]
    omega
  have inside : channel.pending.length ≤ contents.length := by omega
  unfold readResultStream
  rw [withStream_open _ opened]
  generalize world.environment.nextStringFailure = answered
  rcases answered with ⟨raises, env⟩
  cases raises with
  | true => rfl
  | false =>
      simp only [NativeStream.rewind, resultLength, opened.destinationBuffer, Option.bind_some,
        opened.block, inside, Bool.false_eq_true, ↓reduceIte, Option.map_some]

/-- **What `read_result` does to an open object.** -/
theorem readResultStream_open {world : World σ p} {channel : Channel σ}
    (opens : world.Opens channel) : ReadResult world channel (readResultStream world) := by
  obtain ⟨stream, stateHandle, bufferHandle, contents, opened⟩ := opens
  have later := world.environment.later_nextStringFailure
  have quiet := fun quiet : world.environment.Quiet => quiet.nextStringFailure
  rw [readResultStream_eq opened]
  split
  · next raises =>
      refine .noMemory ?_ fun calm => by rw [quiet calm] at raises; cases raises
      constructor
      · exact ⟨_, _, _, _, opened⟩
      · exact ⟨fun _ => .rfl, fun _ => .rfl, rfl⟩
      · rfl
      · exact later
  · refine .returned ?_ opened.pending
    constructor
    · exact ⟨_, stateHandle, bufferHandle, contents, opened.rewind⟩
    · refine ⟨fun _ => .rfl, fun _ => .rfl, ?_⟩
      simp [World.stored, opened.object, NativeStream.rewind]
    · rfl
    · exact later

end RubyLzws.Ext
