import RubyLzws.Ext.String
import RubyLzws.Library.Arena

/-!
# Native stream objects

`stream/compressor.c` and `stream/decompressor.c` are one program over two
codecs.  Here is that program: the struct behind `self`, the memory it points
into, and the methods as functions of both.  What C leaves undefined (a NULL,
stale or already freed pointer, an access outside of a block) is an effect of
its own, so that it can be shown never to happen.
-/

namespace RubyLzws.Ext

open Library Library.Transducer

variable {σ ε ω : Type} {p : Platform}

/-! ## Memory -/

/-- A block of `malloc`, which like a Ruby string is no longer than `PTRDIFF_MAX`. -/
abbrev Block (p : Platform) := RString p

/-- The address of the byte at `offset` of a block. -/
structure Pointer where
  block : Nat
  offset : Nat
  deriving DecidableEq, Repr

/-- `lzws_ext_compressor_t` and `lzws_ext_decompressor_t`; `none` is NULL. -/
structure NativeStream where
  statePtr : Option Nat
  destinationBuffer : Option Nat
  destinationBufferLength : Nat
  remainingDestinationBuffer : Option Pointer
  remainingDestinationBufferLength : Nat
  gvl : Bool
  deriving DecidableEq, Repr

/-- The fields as the allocation functions leave them. -/
def NativeStream.allocated : NativeStream where
  statePtr := none
  destinationBuffer := none
  destinationBufferLength := 0
  remainingDestinationBuffer := none
  remainingDestinationBufferLength := 0
  gvl := false

/-- What a codec was shown and offered in one call, and what it made of that. -/
structure CodecCall where
  source : List Byte
  window : Nat
  consumed : Nat
  written : List Byte
  deriving DecidableEq, Repr

/-- Everything the methods of one object read and change. -/
structure World (σ : Type) (p : Platform) where
  /-- The states that the codec allocated. -/
  states : Arena σ
  /-- The destination buffers that the codec allocated. -/
  buffers : Arena (Block p)
  /-- The struct behind `self`, until the garbage collector frees it. -/
  object : Option NativeStream
  environment : Environment
  /-- The codec calls so far; a record that no method reads. -/
  calls : List CodecCall

/-- Before anything is allocated. -/
def World.start (σ : Type) (p : Platform) (environment : Environment) : World σ p where
  states := .empty
  buffers := .empty
  object := none
  environment := environment
  calls := []

/-- What a method hands to Ruby. -/
inductive Answer (p : Platform) where
  | nil
  | progress (bytes : Nat) (needsMoreDestination : Bool)
  | needsMoreDestination (value : Bool)
  | string (value : RString p)

/-- How a method ends. -/
inductive Effect (σ : Type) (p : Platform) where
  | returned (answer : Answer p) (world : World σ p)
  | raised (exception : Raised) (world : World σ p)
  | undefined

/-- `Data_Make_Struct` and the assignments after it. -/
def World.allocate (world : World σ p) : World σ p :=
  { world with object := some .allocated }

/-! ## Initialize -/

/-- The checks common to both classes before they obtain a state. -/
def initializeArguments (getOptions : Hash p → Except Raised ω) (options : Argument p) :
    Except Raised (Nat × Bool × ω) := do
  let options ← checkHash options
  let destinationBufferLength ← lzwsExtGetSizeOptionValue options .destinationBufferLength
  let gvl ← lzwsExtGetBoolOptionValue options .gvl
  let codecOptions ← getOptions options
  return (destinationBufferLength, gvl, codecOptions)

/-- `lzws_create_destination_buffer_for_...`, whose allocation may fail. -/
def World.createDestinationBuffer (world : World σ p) (create : Nat → Bool → Option Nat)
    (length : Nat) (quiet : Bool) : Option Nat × World σ p :=
  let (fails, env) := world.environment.nextNativeFailure
  match create length quiet with
  | none => (none, { world with environment := env })
  | some made =>
      if fits : fails = false ∧ made ≤ p.maxStringLength then
        let block : Block p := RString.resize RString.empty made env.garbage fits.2
        (some made, { world with buffers := world.buffers.alloc block, environment := env })
      else (none, { world with environment := env })

/--
The common text of `lzws_ext_initialize_compressor` and its sibling: `arguments`
are the resolved options, and the struct is assigned only where nothing failed.
-/
def initializeStream (arguments : Except Raised (Nat × Bool × ω))
    (getInitialState : ω → Environment → Except ε σ × Environment) (errorOf : ε → Raised)
    (create : Nat → Bool → Option Nat) (quiet : ω → Bool) (world : World σ p) : Effect σ p :=
  match world.object with
  | none => .undefined
  | some _ =>
      match arguments with
      | .error exception => .raised exception world
      | .ok (destinationBufferLength, gvl, options) =>
          match getInitialState options world.environment with
          | (.error code, env) => .raised (errorOf code) { world with environment := env }
          | (.ok state, env) =>
              let statePtr := world.states.next
              let stateWorld :=
                { world with states := world.states.alloc state, environment := env }
              let destinationBuffer := stateWorld.buffers.next
              match stateWorld.createDestinationBuffer create destinationBufferLength
                  (quiet options) with
              | (none, failed) =>
                  match failed.states.free statePtr with
                  | none => .undefined
                  | some states =>
                      .raised (lzwsExtRaiseError .allocateFailed) { failed with states := states }
              | (some made, created) =>
                  .returned .nil { created with
                    object := some {
                      statePtr := some statePtr
                      destinationBuffer := some destinationBuffer
                      destinationBufferLength := made
                      remainingDestinationBuffer := some ⟨destinationBuffer, 0⟩
                      remainingDestinationBufferLength := made
                      gvl := gvl } }

/-! ## Codec calls -/

/-- `GET_COMPRESSOR` and `DO_NOT_USE_AFTER_CLOSE`, or their siblings. -/
def withStream (world : World σ p) (method : NativeStream → Effect σ p) : Effect σ p :=
  match world.object with
  | none => .undefined
  | some stream =>
      if stream.statePtr = none ∨ stream.destinationBuffer = none then
        .raised (lzwsExtRaiseError .usedAfterClose) world
      else method stream

/-- The variables after a wrapper function has run. -/
structure NativeRun (σ ε : Type) (p : Platform) where
  world : World σ p
  remainingSourceLength : Nat
  result : Status ε

/--
What a wrapper function does: the codec gets the state and the window of the
struct, writes through the pointer, and advances the pointer and the counters.
-/
def World.runNative (world : World σ p) (stream : NativeStream) (native : Native σ Byte Byte ε)
    (source : List Byte) : Option (NativeRun σ ε p) := do
  let statePtr ← stream.statePtr
  let pointer ← stream.remainingDestinationBuffer
  let state ← world.states.cell statePtr
  let block ← world.buffers.cell pointer.block
  if pointer.offset + stream.remainingDestinationBufferLength ≤ block.length then
    let window := stream.remainingDestinationBufferLength
    let reply := native state source window
    let states ← world.states.set statePtr reply.state
    let buffers ← world.buffers.set pointer.block (block.write pointer.offset reply.written)
    return {
      world := { world with
        states := states
        buffers := buffers
        object := some { stream with
          remainingDestinationBuffer :=
            some ⟨pointer.block, pointer.offset + reply.written.length⟩
          remainingDestinationBufferLength := window - reply.written.length }
        calls := world.calls ++ [⟨source, window, reply.consumed, reply.written⟩] }
      remainingSourceLength := source.length - reply.consumed
      result := reply.status }
  else none

/-- What follows a wrapper function, once the surroundings have answered `LZWS_EXT_GVL_WRAP`. -/
def World.afterWrap (world : World σ p) (answered : Delivery × Environment)
    (wrapper : World σ p → Option (NativeRun σ ε p)) (next : NativeRun σ ε p → Effect σ p) :
    Effect σ p :=
  match answered with
  | (.before, env) => .raised .interrupt { world with environment := env }
  | (.after, env) =>
      match wrapper { world with environment := env } with
      | none => .undefined
      | some run => .raised .interrupt run.world
  | (.nothing, env) =>
      match wrapper { world with environment := env } with
      | none => .undefined
      | some run => next run

/-- `LZWS_EXT_GVL_WRAP` around a wrapper function, and what follows if it returns. -/
def World.wrapNative (world : World σ p) (stream : NativeStream) (native : Native σ Byte Byte ε)
    (source : List Byte) (next : NativeRun σ ε p → Effect σ p) : Effect σ p :=
  world.afterWrap (gvlWrap p stream.gvl world.environment)
    (fun world => world.runNative stream native source) next

/-- `rb_ary_new_from_args(2, ...)` of the consumed bytes and the wish for a new window. -/
def returnProgress (sourceLength : Nat) (needsMoreDestination : Bool) (run : NativeRun σ ε p) :
    Effect σ p :=
  let (raises, env) := run.world.environment.nextArrayFailure
  let world := { run.world with environment := env }
  if raises then .raised .noMemoryError world
  else .returned (.progress (p.sizeSub sourceLength run.remainingSourceLength)
    needsMoreDestination) world

/-- The results of `lzws_ext_compress` and `lzws_ext_decompress`, once the codec has run. -/
def answerCall (resultOf : ε → ExtError) (sourceLength : Nat) (run : NativeRun σ ε p) :
    Effect σ p :=
  match run.result with
  | .error code => .raised (lzwsExtRaiseError (resultOf code)) run.world
  | .ok => returnProgress sourceLength false run
  | .needsMore => returnProgress sourceLength true run

/-- The common text of `lzws_ext_compress` and `lzws_ext_decompress`. -/
def callStream (native : Native σ Byte Byte ε) (resultOf : ε → ExtError) (sourceValue : Value p)
    (world : World σ p) : Effect σ p :=
  withStream world fun stream =>
    match checkString sourceValue with
    | .error exception => .raised exception world
    | .ok source => world.wrapNative stream native source.bytes (answerCall resultOf source.length)

/-- The results of `lzws_ext_compressor_finish`, once the codec has run. -/
def answerFinish (resultOf : ε → ExtError) (run : NativeRun σ ε p) : Effect σ p :=
  match run.result with
  | .error code => .raised (lzwsExtRaiseError (resultOf code)) run.world
  | .ok => .returned (.needsMoreDestination false) run.world
  | .needsMore => .returned (.needsMoreDestination true) run.world

/-- The text of `lzws_ext_compressor_finish`. -/
def finishStream (finish : Finish σ Byte ε) (resultOf : ε → ExtError) (world : World σ p) :
    Effect σ p :=
  withStream world fun stream =>
    world.wrapNative stream (Native.ofFinish finish) [] (answerFinish resultOf)

/-! ## Results and release -/

/--
The common text of `lzws_ext_compressor_read_result` and its sibling: the string
is made first, and only then is the cursor set back.
-/
def readResultStream (world : World σ p) : Effect σ p :=
  withStream world fun stream =>
    let resultLength :=
      p.sizeSub stream.destinationBufferLength stream.remainingDestinationBufferLength
    let (raises, env) := world.environment.nextStringFailure
    if raises then .raised .noMemoryError { world with environment := env }
    else
      match stream.destinationBuffer.bind world.buffers.cell with
      | none => .undefined
      | some block =>
          if resultLength ≤ block.length then
            .returned (.string (block.front resultLength)) { world with
              environment := env
              object := some { stream with
                remainingDestinationBuffer := stream.destinationBuffer.map (⟨·, 0⟩)
                remainingDestinationBufferLength := stream.destinationBufferLength } }
          else .undefined

/-- `if (pointer != NULL) free(pointer)` -/
def freeUnlessNull {κ : Type} (arena : Arena κ) : Option Nat → Option (Arena κ)
  | none => some arena
  | some handle => arena.free handle

/-- The common text of `lzws_ext_compressor_close` and its sibling. -/
def closeStream (world : World σ p) : Effect σ p :=
  withStream world fun stream =>
    match freeUnlessNull world.states stream.statePtr,
        freeUnlessNull world.buffers stream.destinationBuffer with
    | some states, some buffers =>
        -- The other fields are kept as is.
        .returned .nil { world with
          states := states
          buffers := buffers
          object := some { stream with statePtr := none, destinationBuffer := none } }
    | _, _ => .undefined

/-- The common text of `free_compressor` and `free_decompressor`; `none` is undefined behaviour. -/
def freeStream (world : World σ p) : Option (World σ p) :=
  match world.object with
  | none => none
  | some stream =>
      match freeUnlessNull world.states stream.statePtr,
          freeUnlessNull world.buffers stream.destinationBuffer with
      | some states, some buffers =>
          some { world with states := states, buffers := buffers, object := none }
      | _, _ => none

end RubyLzws.Ext
