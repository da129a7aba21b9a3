import RubyLzws.Ext.StoredCodec
import RubyLzws.Ext.Stream.Compressor
import RubyLzws.Ext.Stream.Decompressor

/-!
# Conservation in the stream objects

Whatever the codec emits after `initialize` is handed out by `read_result` or
still lies in the destination buffer below the cursor: each byte once, in order,
and also the bytes of calls that raised.
-/

namespace RubyLzws.Results.StreamConservation

open Ext Library Library.Transducer

variable {σ τ ε : Type} {p : Platform} {μ : Type}

/-- The string that a method returned. -/
def readBytes : Effect σ p → List Byte
  | .returned (.string result) _ => result.bytes
  | _ => []

/-- What the codec emitted in some calls. -/
def emitted (calls : List CodecCall) : List Byte := calls.flatMap CodecCall.written

/-- The strings that all `read_result` calls of a run returned. -/
def readResults (trace : List (Step σ p μ)) : List Byte :=
  trace.flatMap fun step => readBytes step.effect

/-- The methods between `initialize` and `close`. -/
def CompressorStreams : CompressorMethod p → Prop
  | .write _ => True
  | .finish => True
  | .readResult => True
  | _ => False

/-- The methods between `initialize` and `close`. -/
def DecompressorStreams : DecompressorMethod p → Prop
  | .read _ => True
  | .readResult => True
  | _ => False

/-! ## The log of codec calls -/

/-- A record is the codec's own reply in this state, and the codec goes on in the next one. -/
structure Replied (native : Native σ Byte Byte ε) (state : σ) (call : CodecCall) (next : σ) :
    Prop where
  consumed : (native state call.source call.window).consumed = call.consumed
  written : (native state call.source call.window).written = call.written
  next : (native state call.source call.window).state = next

/-- The codec call that a method makes, if it makes one: its source and the codec's reply. -/
def CompressorReplies (codec : CompressorCodec σ) :
    CompressorMethod p → σ → CodecCall → σ → Prop
  | .write (.string source), state, call, next =>
      call.source = source.bytes ∧ Replied codec.compress state call next
  | .finish, state, call, next => call.source = [] ∧ Replied codec.finishNative state call next
  | _, _, _, _ => False

/-- The codec call that a method makes, if it makes one: its source and the codec's reply. -/
def DecompressorReplies (codec : DecompressorCodec σ) :
    DecompressorMethod p → σ → CodecCall → σ → Prop
  | .read (.string source), state, call, next =>
      call.source = source.bytes ∧ Replied codec.decompress state call next
  | _, _, _, _ => False

/-- Records one after the other, each of a call in the state that the call before has left. -/
inductive Logged (replies : σ → CodecCall → σ → Prop) (first : σ) : List CodecCall → σ → Prop where
  | none : Logged replies first [] first
  | call {calls : List CodecCall} {call : CodecCall} {state next : σ}
      (earlier : Logged replies first calls state) (reply : replies state call next) :
      Logged replies first (calls ++ [call]) next

section Logged

variable {replies replies' : σ → CodecCall → σ → Prop} {first middle last : σ}
  {calls calls' : List CodecCall}

theorem Logged.mono (wider : ∀ {state call next}, replies state call next →
      replies' state call next) (log : Logged replies first calls last) :
    Logged replies' first calls last := by
  induction log with
  | none => exact .none
  | call _ reply ih => exact .call ih (wider reply)

theorem Logged.trans (left : Logged replies first calls middle)
    (right : Logged replies middle calls' last) : Logged replies first (calls ++ calls') last := by
  induction right with
  | none =>
      rw [List.append_nil]
      exact left
  | call _ reply ih =>
      rw [← List.append_assoc]
      exact .call ih reply

end Logged

/-- The record that a channel makes of a call. -/
theorem replied_record (channel : Channel σ) (native : Native σ Byte Byte ε)
    (source : List Byte) :
    Replied native channel.state (channel.record native source)
      (channel.feed native source).state := by
  constructor <;> rfl

/-- The state of the codec that the object points to. -/
def Stores (world : World σ p) (state : σ) : Prop :=
  ∃ stream handle, world.object = some stream ∧ stream.statePtr = some handle ∧
    world.states.cell handle = some state

theorem stores_of_opens {world : World σ p} {channel : Channel σ} (opens : world.Opens channel) :
    Stores world channel.state := by
  obtain ⟨stream, stateHandle, _, _, opened⟩ := opens
  exact ⟨stream, stateHandle, opened.object, opened.statePtr, opened.state⟩

/-! ## One step -/

/--
One method moved `channel` to `next`: what it handed out and what is pending now
are what was pending before and what the codec emitted in between, and a count it
returned is the count of source bytes the codec consumed.
-/
structure Conserves (replies : σ → CodecCall → σ → Prop) (before : World σ p)
    (channel : Channel σ) (effect : Effect σ p) (after : World σ p) (next : Channel σ)
    (new : List CodecCall) : Prop where
  opens : after.Opens next
  calls : after.calls = before.calls ++ new
  logged : Logged replies channel.state new next.state
  bytes : readBytes effect ++ next.pending = channel.pending ++ emitted new
  progress : ∀ count more final, effect = .returned (.progress count more) final →
    ∃ call, new = [call] ∧ call.consumed = count

theorem conserves_of_ran {replies : σ → CodecCall → σ → Prop} {before after : World σ p}
    {channel : Channel σ} {native : Native σ Byte Byte ε} {source : List Byte}
    {effect : Effect σ p} (ran : Ran before channel native source after)
    (replied : replies channel.state (channel.record native source)
      (channel.feed native source).state)
    (nothing : readBytes effect = [])
    (progress : ∀ count more final, effect = .returned (.progress count more) final →
      (channel.reply native source).consumed = count) :
    Conserves replies before channel effect after (channel.feed native source)
      [channel.record native source] := by
  constructor
  · exact ran.opens
  · exact ran.calls
  · exact .call .none replied
  · rw [nothing]
    simp [emitted, Channel.record]
  · intro count more final returned
    exact ⟨_, rfl, progress count more final returned⟩

/-- A method that raised without running the codec. -/
theorem conserves_of_idle {replies : σ → CodecCall → σ → Prop} {before after : World σ p}
    {channel : Channel σ} {exception : Raised} (idle : Idle before channel after) :
    Conserves replies before channel (.raised exception after) after channel [] := by
  constructor
  · exact idle.opens
  · rw [idle.calls, List.append_nil]
  · exact .none
  · simp [readBytes, emitted]
  · intro count more final impossible
    cases impossible

/-- An answer that is no string, and a count only of the consumed bytes. -/
structure Counts (answer : Nat → Bool → Answer p) : Prop where
  silent : ∀ {σ : Type} consumed more (world : World σ p),
    readBytes (.returned (answer consumed more) world) = []
  count : ∀ {consumed more counted other}, answer consumed more = .progress counted other →
    consumed = counted

theorem counts_progress : Counts (p := p) .progress := by
  constructor
  · intro σ consumed more world
    rfl
  · intro consumed more counted other same
    cases same
    rfl

theorem counts_needsMoreDestination : Counts (p := p) fun _ => .needsMoreDestination := by
  constructor
  · intro σ consumed more world
    rfl
  · intro consumed more counted other same
    cases same

/-- Calls of the codec conserve, however they end. -/
theorem conserves_of_callResult {replies : σ → CodecCall → σ → Prop}
    {answer : Nat → Bool → Answer p} {resultOf : ε → ExtError}
    {world after : World σ p} {channel : Channel σ} {native : Native σ Byte Byte ε}
    {source : List Byte} {effect : Effect σ p} (counts : Counts answer)
    (replied : replies channel.state (channel.record native source)
      (channel.feed native source).state)
    (result : CallResult answer resultOf world channel native source effect)
    (ends : effect.world? = some after) :
    ∃ next new, Conserves replies world channel effect after next new := by
  have counted : ∀ more last, ∀ count other final,
      (Effect.returned (answer (channel.reply native source).consumed more) last : Effect σ p) =
        .returned (.progress count other) final →
      (channel.reply native source).consumed = count := by
    intro more last count other final same
    injection same with answers
    exact counts.count answers
  cases result with
  | notRun idle _ =>
      cases ends
      exact ⟨_, _, conserves_of_idle idle⟩
  | interrupted ran _ =>
      cases ends
      exact ⟨_, _, conserves_of_ran ran replied rfl (by simp)⟩
  | noMemory ran _ =>
      cases ends
      exact ⟨_, _, conserves_of_ran ran replied rfl (by simp)⟩
  | failed ran _ =>
      cases ends
      exact ⟨_, _, conserves_of_ran ran replied rfl (by simp)⟩
  | done ran _ =>
      cases ends
      exact ⟨_, _, conserves_of_ran ran replied (counts.silent _ _ _) (counted _ _)⟩
  | needsMore ran _ =>
      cases ends
      exact ⟨_, _, conserves_of_ran ran replied (counts.silent _ _ _) (counted _ _)⟩

theorem callStream_conserves {replies : σ → CodecCall → σ → Prop}
    (native : Native σ Byte Byte ε) (resultOf : ε → ExtError) (sourceValue : Value p)
    (replied : ∀ {source state call next}, sourceValue = .string source →
      call.source = source.bytes → Replied native state call next → replies state call next)
    {world after : World σ p} {channel : Channel σ} (opens : world.Opens channel)
    (ends : (callStream native resultOf sourceValue world).world? = some after) :
    ∃ next calls, Conserves replies world channel
      (callStream native resultOf sourceValue world) after next calls := by
  by_cases string : ∃ source, sourceValue = .string source
  · obtain ⟨source, rfl⟩ := string
    exact conserves_of_callResult counts_progress (replied rfl rfl (replied_record _ _ _))
      (callStream_open native resultOf source opens) ends
  · rw [callStream_not_string native resultOf opens fun source same => string ⟨source, same⟩]
      at ends ⊢
    cases ends
    exact ⟨_, _, conserves_of_idle ⟨opens, .refl _, rfl, .refl _⟩⟩

theorem finishStream_conserves {replies : σ → CodecCall → σ → Prop} (finish : Finish σ Byte ε)
    (resultOf : ε → ExtError)
    (replied : ∀ {state call next}, call.source = [] →
      Replied (Native.ofFinish finish) state call next → replies state call next)
    {world after : World σ p} {channel : Channel σ} (opens : world.Opens channel)
    (ends : (finishStream finish resultOf world).world? = some after) :
    ∃ next calls, Conserves replies world channel (finishStream finish resultOf world) after next
      calls :=
  conserves_of_callResult counts_needsMoreDestination (replied rfl (replied_record _ _ _))
    (finishStream_open finish resultOf opens) ends

theorem readResultStream_conserves {replies : σ → CodecCall → σ → Prop}
    {world after : World σ p} {channel : Channel σ} (opens : world.Opens channel)
    (ends : (readResultStream world).world? = some after) :
    ∃ next calls, Conserves replies world channel (readResultStream world) after next calls := by
  have result := readResultStream_open opens
  generalize readResultStream world = effect at result ends ⊢
  cases result with
  | noMemory idle _ =>
      cases ends
      exact ⟨_, _, conserves_of_idle idle⟩
  | @returned last result drained bytes =>
      cases ends
      refine ⟨channel.drain, [], drained.opens, ?_, .none, ?_, ?_⟩
      · rw [drained.calls, List.append_nil]
      · simp [readBytes, emitted, bytes]
      · intro count more final impossible
        cases impossible

theorem compressor_conserves (codec : CompressorCodec σ) {method : CompressorMethod p}
    (streams : CompressorStreams method) {world after : World σ p} {channel : Channel σ}
    (opens : world.Opens channel) (ends : (method.call codec world).world? = some after) :
    ∃ next calls, Conserves (CompressorReplies codec method) world channel
      (method.call codec world) after next calls := by
  cases method with
  | initializeObject options => cases streams
  | write source =>
      refine callStream_conserves _ _ source ?_ opens ends
      rintro source state call next rfl shown reply
      exact ⟨shown, reply⟩
  | finish => exact finishStream_conserves _ _ And.intro opens ends
  | readResult => exact readResultStream_conserves opens ends
  | close => cases streams

theorem decompressor_conserves (codec : DecompressorCodec σ) {method : DecompressorMethod p}
    (streams : DecompressorStreams method) {world after : World σ p} {channel : Channel σ}
    (opens : world.Opens channel) (ends : (method.call codec world).world? = some after) :
    ∃ next calls, Conserves (DecompressorReplies codec method) world channel
      (method.call codec world) after next calls := by
  cases method with
  | initializeObject options => cases streams
  | read source =>
      refine callStream_conserves _ _ source ?_ opens ends
      rintro source state call next rfl shown reply
      exact ⟨shown, reply⟩
  | readResult => exact readResultStream_conserves opens ends
  | close => cases streams

/-! ## Whole runs -/

/-- A codec call that some method of a run made. -/
def RepliesIn (replies : μ → σ → CodecCall → σ → Prop) (trace : List (Step σ p μ)) (state : σ)
    (call : CodecCall) (next : σ) : Prop :=
  ∃ step ∈ trace, replies step.method state call next

/-- What the fields of an object and the strings read so far make of what the codec emitted. -/
structure Conserved (call : μ → World σ p → Effect σ p)
    (replies : μ → σ → CodecCall → σ → Prop) (start world : World σ p)
    (trace : List (Step σ p μ)) : Prop where
  /-- No method is stuck, so that every sequence of calls is such a run. -/
  defined : ∀ method, call method world ≠ .undefined
  /-- The log since `start` is what the codec replied to the methods, state after state. -/
  log : ∃ first last calls, Stores start first ∧ Stores world last ∧
    world.calls = start.calls ++ calls ∧
    Logged (RepliesIn replies trace) first calls last
  bytes : ∃ stream buffer contents calls,
    world.object = some stream ∧ stream.destinationBuffer = some buffer ∧
    world.buffers.cell buffer = some contents ∧
    stream.remainingDestinationBufferLength ≤ stream.destinationBufferLength ∧
    stream.remainingDestinationBuffer = some ⟨buffer,
      stream.destinationBufferLength - stream.remainingDestinationBufferLength⟩ ∧
    world.calls = start.calls ++ calls ∧
    readResults trace ++ contents.bytes.take
      (stream.destinationBufferLength - stream.remainingDestinationBufferLength) = emitted calls
  /-- The counts that were returned are the counts of consumed bytes. -/
  progress : ∀ step ∈ trace, ∀ count more final,
    step.effect = .returned (.progress count more) final →
      ∃ call, final.calls = step.before.calls ++ [call] ∧ call.consumed = count

/-- The run lemma: conservation of every step, added up. -/
theorem conserves_run {call : μ → World σ p → Effect σ p} {Streams : μ → Prop}
    {replies : μ → σ → CodecCall → σ → Prop}
    (step : ∀ {method world after channel}, Streams method → world.Opens channel →
      (call method world).world? = some after →
      ∃ next calls, Conserves (replies method) world channel (call method world) after next calls)
    {start world : World σ p} {trace : List (Step σ p μ)} {channel : Channel σ}
    (reaches : Reaches call start trace world) (streams : ∀ step ∈ trace, Streams step.method)
    (initial : start.Opens channel) (empty : channel.pending = []) :
    (∃ reached calls, world.Opens reached ∧ world.calls = start.calls ++ calls ∧
        Logged (RepliesIn replies trace) channel.state calls reached.state ∧
        readResults trace ++ reached.pending = emitted calls) ∧
      ∀ step ∈ trace, ∀ count more final,
        step.effect = .returned (.progress count more) final →
          ∃ call, final.calls = step.before.calls ++ [call] ∧ call.consumed = count := by
  induction reaches with
  | start =>
      refine ⟨⟨channel, [], initial, (List.append_nil _).symm, .none, ?_⟩, by simp⟩
      simp [readResults, emitted, empty]
  | @step trace world after method before ends ih =>
      obtain ⟨⟨reached, calls, opens, recorded, logged, bytes⟩, counted⟩ :=
        ih fun earlier member => streams earlier (List.mem_append_left _ member)
      have flows : Streams method := streams ⟨world, method, call method world⟩ (by simp)
      obtain ⟨next, new, conserves⟩ := step flows opens ends
      constructor
      · refine ⟨next, calls ++ new, conserves.opens, ?_, ?_, ?_⟩
        · rw [conserves.calls, recorded, List.append_assoc]
        · have last : (⟨world, method, call method world⟩ : Step σ p μ) ∈
              trace ++ [⟨world, method, call method world⟩] := by simp
          refine .trans (logged.mono ?_) (conserves.logged.mono fun reply => ⟨_, last, reply⟩)
          rintro state call next ⟨earlier, member, reply⟩
          exact ⟨earlier, List.mem_append_left _ member, reply⟩
        · calc
            readResults (trace ++ [⟨world, method, call method world⟩]) ++ next.pending
              = readResults trace ++ (readBytes (call method world) ++ next.pending) := by
                simp [readResults]
            _ = (readResults trace ++ reached.pending) ++ emitted new := by
                rw [conserves.bytes, List.append_assoc]
            _ = emitted (calls ++ new) := by
                rw [bytes]
                simp [emitted]
      · intro earlier member count more final returned
        rcases List.mem_append.mp member with old | last
        · exact counted earlier old count more final returned
        · rw [List.mem_singleton.mp last] at returned ⊢
          obtain ⟨only, rfl, consumed⟩ := conserves.progress count more final returned
          refine ⟨only, ?_, consumed⟩
          change call method world = _ at returned
          rw [returned] at ends
          cases ends
          exact conserves.calls

/-- The contents of an open object, in terms of its fields. -/
theorem Conserved.of_opens (object : NativeClass σ p μ) {replies : μ → σ → CodecCall → σ → Prop}
    {start world : World σ p} {trace : List (Step σ p μ)} {channel reached : Channel σ}
    {calls : List CodecCall} (initial : start.Opens channel) (opens : world.Opens reached)
    (recorded : world.calls = start.calls ++ calls)
    (logged : Logged (RepliesIn replies trace) channel.state calls reached.state)
    (bytes : readResults trace ++ reached.pending = emitted calls)
    (progress : ∀ step ∈ trace, ∀ count more final,
      step.effect = .returned (.progress count more) final →
        ∃ call, final.calls = step.before.calls ++ [call] ∧ call.consumed = count) :
    Conserved object.call replies start world trace := by
  have defined : ∀ method, object.call method world ≠ .undefined := by
    intro method undefined
    obtain ⟨after, ends, _⟩ := object.step method world (.inl ⟨reached, opens⟩)
    rw [undefined] at ends
    cases ends
  have log : ∃ first last calls, Stores start first ∧ Stores world last ∧
      world.calls = start.calls ++ calls ∧ Logged (RepliesIn replies trace) first calls last :=
    ⟨_, _, calls, stores_of_opens initial, stores_of_opens opens, recorded, logged⟩
  obtain ⟨stream, stateHandle, bufferHandle, contents, opened⟩ := opens
  have fits := reached.pending_le
  have cursor : stream.destinationBufferLength - stream.remainingDestinationBufferLength =
      reached.pending.length := by
    rw [opened.length, opened.remaining, Channel.window]
    omega
  refine ⟨defined, log, ⟨stream, bufferHandle, contents, calls, opened.object,
    opened.destinationBuffer, opened.block, ?_, ?_, recorded, ?_⟩, progress⟩
  · rw [opened.length, opened.remaining]
    exact Nat.sub_le _ _
  · rw [cursor]
    exact opened.cursor
  · rw [cursor, opened.pending]
    exact bytes

/-- A successful `initialize` opens a channel with nothing pending. -/
theorem initializeStream_returned {ω : Type} {arguments : Except Raised (Nat × Bool × ω)}
    {initial : ω → Except ε σ} {allocateFailed : ε} {errorOf : ε → Raised}
    {create : Nat → Bool → Option Nat} {quiet : ω → Bool} {world after : World σ p}
    (returned : initializeStream arguments
      (fun options => obtainState allocateFailed (initial options)) errorOf create quiet world =
        .returned .nil after) :
    ∃ channel, after.Opens channel ∧ channel.pending = [] := by
  cases object : world.object with
  | none =>
      unfold initializeStream at returned
      rw [object] at returned
      cases returned
  | some stream =>
      have result : InitializeResult arguments initial create quiet world
          (initializeStream arguments
            (fun options => obtainState allocateFailed (initial options)) errorOf create quiet
            world) := initializeStream_cases object
      rw [returned] at result
      cases result with
      | opened _ _ _ _ opened => exact ⟨_, opened.opens, rfl⟩

/--
**Conservation.**  After a successful `initialize`, any run of `write`, `finish`
and `read_result` (of `read` and `read_result`) keeps the cursor inside the
buffer, and the strings read so far followed by the bytes below the cursor are
exactly what the codec has emitted since: the log of its calls is its own replies,
from the state that `initialize` obtained to the state that the object stores now.
-/
theorem native_streams_conserve (compressor : CompressorCodec σ)
    (decompressor : DecompressorCodec τ) (p : Platform) :
    (∀ (options : Argument p) (before start world : World σ p)
        (trace : List (Step σ p (CompressorMethod p))),
      lzwsExtInitializeCompressor compressor options before = .returned .nil start →
      Reaches (CompressorMethod.call compressor) start trace world →
      (∀ step ∈ trace, CompressorStreams step.method) →
        Conserved (CompressorMethod.call compressor) (CompressorReplies compressor) start world
          trace) ∧
    (∀ (options : Argument p) (before start world : World τ p)
        (trace : List (Step τ p (DecompressorMethod p))),
      lzwsExtInitializeDecompressor decompressor options before = .returned .nil start →
      Reaches (DecompressorMethod.call decompressor) start trace world →
      (∀ step ∈ trace, DecompressorStreams step.method) →
        Conserved (DecompressorMethod.call decompressor) (DecompressorReplies decompressor) start
          world trace) := by
  constructor
  · intro options before start world trace initialized reaches streams
    obtain ⟨channel, opens, empty⟩ := initializeStream_returned initialized
    obtain ⟨⟨reached, calls, reachedOpens, recorded, logged, bytes⟩, progress⟩ :=
      conserves_run (fun streams opens ends => compressor_conserves compressor streams opens ends)
        reaches streams opens empty
    exact .of_opens (nativeCompressor compressor p) opens reachedOpens recorded logged bytes
      progress
  · intro options before start world trace initialized reaches streams
    obtain ⟨channel, opens, empty⟩ := initializeStream_returned initialized
    obtain ⟨⟨reached, calls, reachedOpens, recorded, logged, bytes⟩, progress⟩ :=
      conserves_run
        (fun streams opens ends => decompressor_conserves decompressor streams opens ends)
        reaches streams opens empty
    exact .of_opens (nativeDecompressor decompressor p) opens reachedOpens recorded logged bytes
      progress

/-- Two bytes of the archive are read, and one still lies in the buffer of two bytes. -/
theorem native_streams_conserve_header :
    ∃ start world trace,
      lzwsExtInitializeCompressor StoredCodec.compressor
          (.hash (StoredCodec.options .linux64 2 true)) (World.start _ _ .calm).allocate =
        .returned .nil start ∧
      follow (CompressorMethod.call StoredCodec.compressor)
        [.write (.string (.ofBytes [7])), .readResult,
          .write (.string (.ofBytes []))] start = some (trace, world) ∧
      readResults trace = [0x1f, 0x9d] ∧
      Conserved (CompressorMethod.call StoredCodec.compressor)
        (CompressorReplies StoredCodec.compressor) start world trace := by
  have found : ((initializedWorld (lzwsExtInitializeCompressor StoredCodec.compressor
      (.hash (StoredCodec.options .linux64 2 true)) (World.start _ _
        .calm).allocate)).bind fun start =>
        (follow (CompressorMethod.call StoredCodec.compressor)
          [.write (.string (.ofBytes [7])), .readResult,
            .write (.string (.ofBytes []))] start).map fun result =>
              readResults result.1) = some [0x1f, 0x9d] := by
    decide +kernel
  obtain ⟨start, opened, rest⟩ := Option.bind_eq_some_iff.mp found
  obtain ⟨⟨trace, world⟩, followed, read⟩ := Option.map_eq_some_iff.mp rest
  have initialized := returned_of_initializedWorld opened
  refine ⟨start, world, trace, initialized, followed, read, ?_⟩
  refine (native_streams_conserve StoredCodec.compressor StoredCodec.decompressor .linux64).1 _ _ _
    _ _ initialized (Reaches.of_follow followed) ?_
  intro step member
  have listed : step.method ∈ trace.map Step.method := List.mem_map_of_mem member
  rw [follow_methods followed] at listed
  simp only [List.mem_cons, List.not_mem_nil, or_false] at listed
  rcases listed with same | same | same <;> rw [same] <;> trivial

end RubyLzws.Results.StreamConservation
