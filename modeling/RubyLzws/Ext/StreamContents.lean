import RubyLzws.Ext.Stream.Compressor
import RubyLzws.Ext.Stream.Decompressor

/-!
# Stream objects without pointers

What a stream object is for its caller: closed, or a channel.  The methods are given
once more on these contents, with no handles, cursors or memory, and the methods of
`Stream` are shown to do the same: they answer the same, hold the same contents
afterwards, and touch no memory but their own.
-/

namespace RubyLzws.Ext

open Library Library.Transducer

variable {σ ε ω : Type} {p : Platform}

/-! ## The methods on contents -/

/-- What an object holds: nothing before `initialize` and after `close`, else a channel. -/
abbrev Contents (σ : Type) := Option (Channel σ)

/-- What the caller sees of the end of a method. -/
inductive Seen where
  | nil
  | progress (bytes : Nat) (needsMoreDestination : Bool)
  | needsMoreDestination (value : Bool)
  | result (bytes : List Byte)
  | raised (exception : Raised)
  deriving DecidableEq, Repr

/-- The end of a method on contents. -/
structure Observed (σ : Type) where
  seen : Seen
  contents : Contents σ
  environment : Environment

/-- The array of a count and a wish for a new window, or the lack of memory for it. -/
def progressSeen (consumed : Nat) (needsMoreDestination : Bool) (env : Environment) :
    Seen × Environment :=
  let (raises, env) := env.nextArrayFailure
  (if raises then .raised .noMemoryError else .progress consumed needsMoreDestination, env)

/-- What the caller sees of `write` and `read`, once the codec has run. -/
def callSeen (resultOf : ε → ExtError) (consumed : Nat) (status : Status ε) (env : Environment) :
    Seen × Environment :=
  match status with
  | .error code => (.raised (lzwsExtRaiseError (resultOf code)), env)
  | .ok => progressSeen consumed false env
  | .needsMore => progressSeen consumed true env

/-- What the caller sees of `finish`, once the codec has run. -/
def finishSeen (resultOf : ε → ExtError) (_consumed : Nat) (status : Status ε)
    (env : Environment) : Seen × Environment :=
  match status with
  | .error code => (.raised (lzwsExtRaiseError (resultOf code)), env)
  | .ok => (.needsMoreDestination false, env)
  | .needsMore => (.needsMoreDestination true, env)

/-- A codec call on a channel, with what may happen around it. -/
def Channel.wrapped (p : Platform) (channel : Channel σ) (native : Native σ Byte Byte ε)
    (source : List Byte) (seen : Nat → Status ε → Environment → Seen × Environment)
    (env : Environment) : Observed σ :=
  match gvlWrap p channel.gvl env with
  | (.before, env) => ⟨.raised .interrupt, some channel, env⟩
  | (.after, env) => ⟨.raised .interrupt, some (channel.feed native source), env⟩
  | (.nothing, env) =>
      let reply := channel.reply native source
      let (seen, env) := seen reply.consumed reply.status env
      ⟨seen, some (channel.feed native source), env⟩

namespace Contents

/-- Closed contents answer every method but `initialize` in the same way. -/
def whenOpen (contents : Contents σ) (env : Environment) (method : Channel σ → Observed σ) :
    Observed σ :=
  match contents with
  | none => ⟨.raised (lzwsExtRaiseError .usedAfterClose), none, env⟩
  | some channel => method channel

@[simp]
theorem whenOpen_some (channel : Channel σ) (env : Environment)
    (method : Channel σ → Observed σ) :
    whenOpen (some channel) env method = method channel := rfl

/-- `initialize` -/
def initializeObject (p : Platform) (arguments : Except Raised (Nat × Bool × ω))
    (getInitialState : ω → Environment → Except ε σ × Environment) (errorOf : ε → Raised)
    (create : Nat → Bool → Option Nat) (quiet : ω → Bool) (contents : Contents σ)
    (env : Environment) : Observed σ :=
  match arguments with
  | .error exception => ⟨.raised exception, contents, env⟩
  | .ok (length, gvl, options) =>
      match getInitialState options env with
      | (.error code, env) => ⟨.raised (errorOf code), contents, env⟩
      | (.ok state, env) =>
          let (fails, env) := env.nextNativeFailure
          match create length (quiet options) with
          | none => ⟨.raised (lzwsExtRaiseError .allocateFailed), contents, env⟩
          | some made =>
              if fails = false ∧ made ≤ p.maxStringLength then
                ⟨.nil, some (.fresh state made gvl), env⟩
              else ⟨.raised (lzwsExtRaiseError .allocateFailed), contents, env⟩

/-- `write` and `read` -/
def call (native : Native σ Byte Byte ε) (resultOf : ε → ExtError) (sourceValue : Value p)
    (contents : Contents σ) (env : Environment) : Observed σ :=
  contents.whenOpen env fun channel =>
    match checkString sourceValue with
    | .error exception => ⟨.raised exception, contents, env⟩
    | .ok source => channel.wrapped p native source.bytes (callSeen resultOf) env

/-- `finish` -/
def finish (p : Platform) (finish : Finish σ Byte ε) (resultOf : ε → ExtError)
    (contents : Contents σ) (env : Environment) : Observed σ :=
  contents.whenOpen env fun channel =>
    channel.wrapped p (Native.ofFinish finish) [] (finishSeen resultOf) env

/-- `read_result` -/
def readResult (contents : Contents σ) (env : Environment) : Observed σ :=
  contents.whenOpen env fun channel =>
    let (raises, env) := env.nextStringFailure
    if raises then ⟨.raised .noMemoryError, contents, env⟩
    else ⟨.result channel.pending, some channel.drain, env⟩

/-- `close` -/
def close (contents : Contents σ) (env : Environment) : Observed σ :=
  contents.whenOpen env fun _ => ⟨.nil, none, env⟩

end Contents

/-- The methods of `NativeCompressor` on contents. -/
def CompressorMethod.observe (codec : CompressorCodec σ) :
    CompressorMethod p → Contents σ → Environment → Observed σ
  | .initializeObject options =>
      Contents.initializeObject p (initializeCompressorArguments codec options)
        (lzwsCompressorGetInitialState codec) compressorInitialStateError
        codec.createDestinationBuffer (·.quiet)
  | .write source => Contents.call codec.compress (fun _ => .unexpected) source
  | .finish => Contents.finish p codec.finish fun _ => .unexpected
  | .readResult => Contents.readResult
  | .close => Contents.close

/-- The methods of `NativeDecompressor` on contents. -/
def DecompressorMethod.observe (codec : DecompressorCodec σ) :
    DecompressorMethod p → Contents σ → Environment → Observed σ
  | .initializeObject options =>
      Contents.initializeObject p (initializeDecompressorArguments codec options)
        (lzwsDecompressorGetInitialState codec) decompressorInitialStateError
        codec.createDestinationBuffer (·.quiet)
  | .read source => Contents.call codec.decompress decompressResult source
  | .readResult => Contents.readResult
  | .close => Contents.close

/-! ## What the methods with pointers do -/

/-- What the caller sees of an answer. -/
def Answer.seen : Answer p → Seen
  | .nil => .nil
  | .progress bytes more => .progress bytes more
  | .needsMoreDestination value => .needsMoreDestination value
  | .string value => .result value.bytes

/-- What the caller sees of the end of a method, unless it is undefined. -/
def Effect.seen? : Effect σ p → Option Seen
  | .returned answer _ => some answer.seen
  | .raised exception _ => some (.raised exception)
  | .undefined => none

/-- The struct behind `self` and the memory hold some contents. -/
def Holds (object : Option NativeStream) (states : Arena σ) (buffers : Arena (Block p)) :
    Contents σ → Prop
  | none => ∃ stream, object = some stream ∧ stream.statePtr = none ∧
      stream.destinationBuffer = none
  | some channel => ∃ stream stateHandle bufferHandle contents,
      OpenAt object states buffers channel stream stateHandle bufferHandle contents

/-- The world of an object holds some contents. -/
def World.Holds (world : World σ p) (contents : Contents σ) : Prop :=
  Ext.Holds world.object world.states world.buffers contents

/-- The handle of the state that a struct stores. -/
def ownedState (object : Option NativeStream) : Option Nat := object.bind NativeStream.statePtr

/-- The handle of the destination buffer that a struct stores. -/
def ownedBuffer (object : Option NativeStream) : Option Nat :=
  object.bind NativeStream.destinationBuffer

/--
An arena after a step that worked only on the cell `owned` and on new ones; the cell it
owns afterwards is one of these.
-/
structure LocalTo {κ : Type} (before : Arena κ) (owned : Option Nat) (after : Arena κ)
    (ownedAfter : Option Nat) : Prop where
  others : ∀ handle, before.Live handle → owned ≠ some handle →
    after.cell handle = before.cell handle
  owns : ∀ handle, ownedAfter = some handle → owned = some handle ∨ ¬ before.Live handle

/-- A step that touches no memory but that of its object. -/
structure Local (before after : World σ p) : Prop where
  states : LocalTo before.states (ownedState before.object) after.states (ownedState after.object)
  buffers : LocalTo before.buffers (ownedBuffer before.object) after.buffers
    (ownedBuffer after.object)

/-- A method ends as it does on contents, and touches no memory but that of its object. -/
def Simulates (before : World σ p) (effect : Effect σ p) (observed : Observed σ) : Prop :=
  ∃ after, effect.world? = some after ∧ effect.seen? = some observed.seen ∧
    after.Holds observed.contents ∧ after.environment = observed.environment ∧ Local before after

/-! ## Memory of one object -/

section Memory

variable {κ : Type} {arena after : Arena κ} {owned : Option Nat}

theorem LocalTo.refl (arena : Arena κ) (owned : Option Nat) :
    LocalTo arena owned arena owned :=
  ⟨fun _ _ _ => rfl, fun _ own => .inl own⟩

theorem LocalTo.of_cell_eq (same : after.cell = arena.cell) :
    LocalTo arena owned after owned := by
  constructor
  · intro handle _ _
    rw [same]
  · exact fun _ own => .inl own

/-- Writing to the owned cell. -/
theorem LocalTo.of_sets {handle : Nat} {content : κ} (sets : arena.Sets handle content after) :
    LocalTo arena (some handle) after (some handle) := by
  constructor
  · intro other _ different
    exact sets.cell_other fun same => different (congrArg some same.symm)
  · exact fun _ own => .inl own

/-- Releasing the owned cell. -/
theorem LocalTo.of_frees {handle : Nat} (frees : arena.Frees handle after) :
    LocalTo arena (some handle) after none := by
  constructor
  · intro other _ different
    exact frees.cell_other fun same => different (congrArg some same.symm)
  · exact fun _ impossible => by cases impossible

/-- Taking a new cell, whatever was owned before. -/
theorem LocalTo.of_alloc (arena : Arena κ) (owned : Option Nat) (content : κ) :
    LocalTo arena owned (arena.alloc content) (some arena.next) := by
  constructor
  · intro handle live _
    exact Function.update_of_ne (Nat.ne_of_lt live.lt_next) _ _
  · intro handle new
    cases new
    exact .inr (Arena.not_live_next arena)

end Memory

theorem World.Holds.exists_object {world : World σ p} {contents : Contents σ}
    (holds : world.Holds contents) : ∃ stream, world.object = some stream := by
  cases contents with
  | none =>
      obtain ⟨stream, object, _⟩ := holds
      exact ⟨stream, object⟩
  | some channel =>
      obtain ⟨stream, _, _, _, opened⟩ := holds
      exact ⟨stream, opened.object⟩

/-- A new object holds nothing. -/
theorem World.allocate_holds (world : World σ p) : world.allocate.Holds none :=
  world.allocate_closes

/-- What is held is held by the live cells, whatever handle comes next. -/
theorem Holds.of_cell_eq {object : Option NativeStream} {states others : Arena σ}
    {buffers : Arena (Block p)} {contents : Contents σ}
    (holds : Holds object states buffers contents) (same : others.cell = states.cell) :
    Holds object others buffers contents := by
  cases contents with
  | none => exact holds
  | some channel =>
      obtain ⟨stream, stateHandle, bufferHandle, block, opened⟩ := holds
      exact ⟨stream, stateHandle, bufferHandle, block,
        { opened with state := by rw [same, opened.state] }⟩

/-- A step that changed nothing but the environment. -/
theorem simulates_of_same {before : World σ p} {contents : Contents σ} {effect : Effect σ p}
    {seen : Seen} {env : Environment} (holds : before.Holds contents)
    (ends : effect.world? = some { before with environment := env })
    (sees : effect.seen? = some seen) : Simulates before effect ⟨seen, contents, env⟩ :=
  ⟨_, ends, sees, holds, rfl, .refl _ _, .refl _ _⟩

/-! ## Codec calls -/

section Calls

variable {world : World σ p} {channel : Channel σ} {stream : NativeStream}
  {stateHandle bufferHandle : Nat} {contents : Block p}

theorem OpenAt.holds
    (opened : OpenAt world.object world.states world.buffers channel stream stateHandle
      bufferHandle contents) : world.Holds (some channel) :=
  ⟨stream, stateHandle, bufferHandle, contents, opened⟩

/-- The codec writes to the state and the buffer of the object, and to nothing else. -/
theorem World.runNative_local {native : Native σ Byte Byte ε} {source : List Byte}
    {run : NativeRun σ ε p}
    (opened : OpenAt world.object world.states world.buffers channel stream stateHandle
      bufferHandle contents)
    (executed : world.runNative stream native source = some run) : Local world run.world := by
  rcases stream with ⟨statePtr, destinationBuffer, length, cursor, remaining, gvl⟩
  obtain rfl : statePtr = some stateHandle := opened.statePtr
  obtain rfl : destinationBuffer = some bufferHandle := opened.destinationBuffer
  obtain rfl : cursor = some ⟨bufferHandle, channel.pending.length⟩ := opened.cursor
  unfold World.runNative at executed
  simp only [Option.bind_eq_bind, Option.bind_some, opened.state, opened.block] at executed
  split at executed
  · obtain ⟨states, stateSet, executed⟩ := Option.bind_eq_some_iff.mp executed
    obtain ⟨buffers, bufferSet, executed⟩ := Option.bind_eq_some_iff.mp executed
    cases executed
    constructor
    · rw [opened.object]
      exact .of_sets (.of_set stateSet)
    · rw [opened.object]
      exact .of_sets (.of_set bufferSet)
  · cases executed

/-- A wrapped codec call, if what follows it answers as `seen` says. -/
theorem World.wrapNative_simulates (native : Native σ Byte Byte ε) (source : List Byte)
    {next : NativeRun σ ε p → Effect σ p} {seen : Nat → Status ε → Environment → Seen × Environment}
    (answers : ∀ (run : NativeRun σ ε p) (consumed : Nat), consumed ≤ source.length →
      run.remainingSourceLength = source.length - consumed →
      (next run).world? = some { run.world with
          environment := (seen consumed run.result run.world.environment).2 } ∧
        (next run).seen? = some (seen consumed run.result run.world.environment).1)
    (opened : OpenAt world.object world.states world.buffers channel stream stateHandle
      bufferHandle contents) :
    Simulates world (world.wrapNative stream native source next)
      (channel.wrapped p native source seen world.environment) := by
  unfold World.wrapNative World.afterWrap Channel.wrapped
  rw [opened.gvl]
  generalize gvlWrap p channel.gvl world.environment = wrapped
  rcases wrapped with ⟨delivery, env⟩
  -- Memory is what it was before the environment was asked.
  obtain ⟨run, executed, ran, sameEnv, remaining, result⟩ :=
    World.runNative_open { world with environment := env } native source opened
  have touched : Local { world with environment := env } run.world :=
    World.runNative_local opened executed
  cases delivery with
  | before => exact simulates_of_same opened.holds rfl rfl
  | after =>
      simp only [executed]
      exact ⟨_, rfl, rfl, ran.opens, sameEnv, touched.states, touched.buffers⟩
  | nothing =>
      simp only [executed]
      obtain ⟨ends, sees⟩ := answers run _ (channel.reply native source).consumed_le remaining
      rw [result, sameEnv] at ends sees
      exact ⟨_, ends, sees, ran.opens, rfl, touched.states, touched.buffers⟩

end Calls

/-- `rb_ary_new_from_args` hands out the count of consumed bytes, or raises. -/
theorem returnProgress_seen {run : NativeRun σ ε p} {sourceLength consumed : Nat}
    (fits : sourceLength < p.sizeModulus) (bound : consumed ≤ sourceLength)
    (remaining : run.remainingSourceLength = sourceLength - consumed) (more : Bool) :
    (returnProgress sourceLength more run).world? = some { run.world with
        environment := (progressSeen consumed more run.world.environment).2 } ∧
      (returnProgress sourceLength more run).seen? =
        some (progressSeen consumed more run.world.environment).1 := by
  have count : p.sizeSub sourceLength run.remainingSourceLength = consumed := by
    rw [remaining, p.sizeSub_eq (Nat.sub_le _ _) fits]
    omega
  unfold returnProgress progressSeen
  generalize run.world.environment.nextArrayFailure = answered
  rcases answered with ⟨raises, env⟩
  cases raises with
  | false => exact ⟨rfl, by rw [count]; rfl⟩
  | true => exact ⟨rfl, rfl⟩

/-! ## Each method -/

section Methods

variable {world : World σ p} {contents : Contents σ}

/-- A closed object refuses the methods that closed contents refuse. -/
theorem withStream_simulates_closed {method : NativeStream → Effect σ p}
    {observe : Channel σ → Observed σ} (holds : world.Holds none) :
    Simulates world (withStream world method)
      (Contents.whenOpen none world.environment observe) := by
  rw [withStream_closed method holds]
  exact simulates_of_same holds rfl rfl

theorem callStream_simulates (native : Native σ Byte Byte ε) (resultOf : ε → ExtError)
    (sourceValue : Value p) (holds : world.Holds contents) :
    Simulates world (callStream native resultOf sourceValue world)
      (contents.call native resultOf sourceValue world.environment) := by
  cases contents with
  | none => exact withStream_simulates_closed holds
  | some channel =>
      obtain ⟨stream, stateHandle, bufferHandle, block, opened⟩ := holds
      unfold callStream Contents.call
      rw [withStream_open _ opened, Contents.whenOpen_some]
      cases checkString sourceValue with
      | error exception =>
          exact simulates_of_same opened.holds rfl rfl
      | ok source =>
          refine World.wrapNative_simulates native source.bytes ?_ opened
          intro run consumed bound remaining
          unfold answerCall callSeen
          cases run.result with
          | error code => exact ⟨rfl, rfl⟩
          | ok => exact returnProgress_seen source.length_lt_sizeModulus bound remaining false
          | needsMore => exact returnProgress_seen source.length_lt_sizeModulus bound remaining true

theorem finishStream_simulates (finish : Finish σ Byte ε) (resultOf : ε → ExtError)
    (holds : world.Holds contents) :
    Simulates world (finishStream finish resultOf world)
      (contents.finish p finish resultOf world.environment) := by
  cases contents with
  | none => exact withStream_simulates_closed holds
  | some channel =>
      obtain ⟨stream, stateHandle, bufferHandle, block, opened⟩ := holds
      unfold finishStream Contents.finish
      rw [withStream_open _ opened, Contents.whenOpen_some]
      refine World.wrapNative_simulates (Native.ofFinish finish) [] ?_ opened
      intro run consumed _ _
      unfold answerFinish finishSeen
      cases run.result with
      | error code => exact ⟨rfl, rfl⟩
      | ok => exact ⟨rfl, rfl⟩
      | needsMore => exact ⟨rfl, rfl⟩

theorem readResultStream_simulates (holds : world.Holds contents) :
    Simulates world (readResultStream world) (contents.readResult world.environment) := by
  cases contents with
  | none => exact withStream_simulates_closed holds
  | some channel =>
      obtain ⟨stream, stateHandle, bufferHandle, block, opened⟩ := holds
      rw [readResultStream_eq opened, Contents.readResult, Contents.whenOpen_some]
      generalize world.environment.nextStringFailure = answered
      rcases answered with ⟨raises, env⟩
      cases raises with
      | true => exact simulates_of_same opened.holds rfl rfl
      | false =>
          refine ⟨_, rfl, ?_, ⟨_, _, _, _, opened.rewind⟩, rfl, ?_⟩
          · exact congrArg (some ∘ Seen.result) opened.pending
          · constructor
            · rw [opened.object]
              exact .refl _ _
            · rw [opened.object]
              exact .refl _ _

theorem closeStream_simulates (holds : world.Holds contents) :
    Simulates world (closeStream world) (contents.close world.environment) := by
  cases contents with
  | none => exact withStream_simulates_closed holds
  | some channel =>
      obtain ⟨stream, stateHandle, bufferHandle, block, opened⟩ := holds
      obtain ⟨states, buffers, statesAfter, buffersAfter, closed⟩ := closeStream_eq opened
      rw [closed, Contents.close, Contents.whenOpen_some]
      refine ⟨_, rfl, rfl, ⟨_, rfl, rfl, rfl⟩, rfl, ?_⟩
      constructor
      · rw [opened.object, ownedState, Option.bind_some, opened.statePtr]
        exact .of_frees statesAfter
      · rw [opened.object, ownedBuffer, Option.bind_some, opened.destinationBuffer]
        exact .of_frees buffersAfter

/-- The free function releases the memory of its object, and no other. -/
theorem freeStream_local (holds : world.Holds contents) :
    ∃ after, freeStream world = some after ∧
      LocalTo world.states (ownedState world.object) after.states none ∧
      LocalTo world.buffers (ownedBuffer world.object) after.buffers none := by
  cases contents with
  | none =>
      obtain ⟨stream, object, statePtr, destinationBuffer⟩ := holds
      simp only [freeStream, object, statePtr, destinationBuffer, freeUnlessNull, ownedState,
        ownedBuffer, Option.bind_some]
      exact ⟨_, rfl, .refl _ _, .refl _ _⟩
  | some channel =>
      obtain ⟨stream, stateHandle, bufferHandle, block, opened⟩ := holds
      obtain ⟨states, stateFreed, statesAfter⟩ :=
        Arena.exists_free (Arena.live_of_cell opened.state)
      obtain ⟨buffers, bufferFreed, buffersAfter⟩ :=
        Arena.exists_free (Arena.live_of_cell opened.block)
      simp only [freeStream, opened.object, opened.statePtr, opened.destinationBuffer,
        freeUnlessNull, stateFreed, bufferFreed, ownedState, ownedBuffer, Option.bind_some]
      exact ⟨_, rfl, .of_frees statesAfter, .of_frees buffersAfter⟩

theorem initializeStream_simulates {arguments : Except Raised (Nat × Bool × ω)}
    {getInitialState : ω → Environment → Except ε σ × Environment} {errorOf : ε → Raised}
    {create : Nat → Bool → Option Nat} {quiet : ω → Bool} (holds : world.Holds contents) :
    Simulates world (initializeStream arguments getInitialState errorOf create quiet world)
      (contents.initializeObject p arguments getInitialState errorOf create quiet
        world.environment) := by
  obtain ⟨stream, object⟩ := holds.exists_object
  rcases world with ⟨states, buffers, found, env, calls⟩
  obtain rfl : found = some stream := object
  unfold initializeStream Contents.initializeObject
  cases arguments with
  | error exception => exact simulates_of_same holds rfl rfl
  | ok values =>
      rcases values with ⟨length, gvl, options⟩
      simp only
      generalize getInitialState options env = obtained
      rcases obtained with ⟨result, stateEnv⟩
      cases result with
      | error code => exact simulates_of_same holds rfl rfl
      | ok state =>
          simp only
          unfold World.createDestinationBuffer
          generalize stateEnv.nextNativeFailure = answered
          rcases answered with ⟨fails, bufferEnv⟩
          obtain ⟨released, freed, same⟩ := cell_free_alloc states state
          have failing : Simulates ⟨states, buffers, some stream, env, calls⟩
              (.raised (lzwsExtRaiseError .allocateFailed)
                ⟨released, buffers, some stream, bufferEnv, calls⟩)
              ⟨.raised (lzwsExtRaiseError .allocateFailed), contents, bufferEnv⟩ :=
            ⟨_, rfl, rfl, holds.of_cell_eq same, rfl, .of_cell_eq same, .refl _ _⟩
          cases create length (quiet options) with
          | none =>
              simp only [freed]
              exact failing
          | some made =>
              by_cases fits : fails = false ∧ made ≤ p.maxStringLength
              · simp only [fits, and_self, ↓reduceDIte, ↓reduceIte]
                exact ⟨_, rfl, rfl, ⟨_, _, _, _, openAt_initialized states buffers state gvl
                  (RString.resize_length _ _ _ fits.2)⟩, rfl, .of_alloc _ _ _, .of_alloc _ _ _⟩
              · simp only [fits, ↓reduceDIte, ↓reduceIte, freed]
                exact failing

end Methods

/-- **`NativeCompressor` does what its contents do.** -/
theorem CompressorMethod.simulates (codec : CompressorCodec σ) (method : CompressorMethod p)
    {world : World σ p} {contents : Contents σ} (holds : world.Holds contents) :
    Simulates world (method.call codec world)
      (method.observe codec contents world.environment) := by
  cases method with
  | initializeObject options => exact initializeStream_simulates holds
  | write source => exact callStream_simulates _ _ source holds
  | finish => exact finishStream_simulates _ _ holds
  | readResult => exact readResultStream_simulates holds
  | close => exact closeStream_simulates holds

/-- **`NativeDecompressor` does what its contents do.** -/
theorem DecompressorMethod.simulates (codec : DecompressorCodec σ) (method : DecompressorMethod p)
    {world : World σ p} {contents : Contents σ} (holds : world.Holds contents) :
    Simulates world (method.call codec world)
      (method.observe codec contents world.environment) := by
  cases method with
  | initializeObject options => exact initializeStream_simulates holds
  | read source => exact callStream_simulates _ _ source holds
  | readResult => exact readResultStream_simulates holds
  | close => exact closeStream_simulates holds

/-! ## Whole lives -/

section Lives

variable {μ : Type}

/-- What an object shows while the methods of a list are called, and what it is left with. -/
def observeAll (observe : μ → Contents σ → Environment → Observed σ) :
    List μ → Contents σ → Environment → List Seen × Contents σ × Environment
  | [], contents, env => ([], contents, env)
  | method :: methods, contents, env =>
      let observed := observe method contents env
      let rest := observeAll observe methods observed.contents observed.environment
      (observed.seen :: rest.1, rest.2)

/-- The run lemma: a list of methods shows what it shows on contents. -/
theorem follow_observed {call : μ → World σ p → Effect σ p}
    {observe : μ → Contents σ → Environment → Observed σ}
    (simulates : ∀ (method : μ) {world : World σ p} {contents : Contents σ},
      world.Holds contents →
        Simulates world (call method world) (observe method contents world.environment))
    (methods : List μ) {world : World σ p} {contents : Contents σ}
    (holds : world.Holds contents) :
    ∃ trace last, follow call methods world = some (trace, last) ∧
      trace.map (fun step => step.effect.seen?) =
        (observeAll observe methods contents world.environment).1.map some ∧
      last.Holds (observeAll observe methods contents world.environment).2.1 ∧
      last.environment = (observeAll observe methods contents world.environment).2.2 := by
  induction methods generalizing world contents with
  | nil => exact ⟨[], world, rfl, rfl, holds, rfl⟩
  | cons method methods ih =>
      obtain ⟨after, ends, sees, holdsAfter, sameEnvironment, _⟩ := simulates method holds
      obtain ⟨trace, last, followed, shown, holdsLast, lastEnvironment⟩ := ih holdsAfter
      rw [sameEnvironment] at shown holdsLast lastEnvironment
      refine ⟨⟨world, method, call method world⟩ :: trace, last, ?_, ?_, holdsLast, lastEnvironment⟩
      · simp only [follow, ends, followed, Option.map_some]
      · rw [List.map_cons, sees, shown]
        rfl

/-- A new object shows in every life what its contents show, and holds them at the end. -/
def RefinesContents (call : μ → World σ p → Effect σ p)
    (observe : μ → Contents σ → Environment → Observed σ) : Prop :=
  ∀ (methods : List μ) (env : Environment), ∃ trace last,
    follow call methods (World.start σ p env).allocate = some (trace, last) ∧
      trace.map (fun step => step.effect.seen?) =
        (observeAll observe methods none env).1.map some ∧
      last.Holds (observeAll observe methods none env).2.1 ∧
      last.environment = (observeAll observe methods none env).2.2

theorem refinesContents {call : μ → World σ p → Effect σ p}
    {observe : μ → Contents σ → Environment → Observed σ}
    (simulates : ∀ (method : μ) {world : World σ p} {contents : Contents σ},
      world.Holds contents →
        Simulates world (call method world) (observe method contents world.environment)) :
    RefinesContents call observe :=
  fun methods _ => follow_observed simulates methods (World.allocate_holds _)

end Lives

end RubyLzws.Ext
