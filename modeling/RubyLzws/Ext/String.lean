import RubyLzws.Ext.Codec
import RubyLzws.Ext.Environment
import RubyLzws.Library.Loop

/-!
# The string functions

`string.c` with the string macros of `buffer.h`: a Ruby string whose tail is the
window of the codec grows until the codec is done.  Every function here may be
left in three ways: by returning 0, by returning an error code to the caller, or
by a Ruby exception that jumps over the caller.
-/

namespace RubyLzws.Ext

open Library.Transducer Library.Loop

/-- How a C function that returns an `lzws_ext_result_t` is left. -/
inductive Exit (α : Type) where
  | ok (value : α)
  | error (code : ExtError)
  /-- A long jump: no C frame between here and Ruby goes on. -/
  | raised (exception : Raised)

variable {σ ε : Type} {p : Platform}

/-! ## Buffers -/

/-- `LZWS_EXT_CREATE_STRING_BUFFER`: `none` is an exception that `rb_protect` caught. -/
def lzwsExtCreateStringBuffer (length : Nat) (env : Environment) :
    Option (RString p) × Environment :=
  let (fails, after) := env.nextStringFailure
  if fits : fails = false ∧ length ≤ p.maxStringLength then
    (some (RString.resize RString.empty length env.garbage fits.2), after)
  else (none, after)

/--
`LZWS_EXT_RESIZE_STRING_BUFFER` and the check after it.  The argument array is
made outside of `rb_protect`, the resize happens inside.
-/
def lzwsExtResizeStringBuffer (buffer : RString p) (length : Nat) (env : Environment) :
    Exit (RString p) × Environment :=
  let (raises, env) := env.nextArrayFailure
  if raises then (.raised .noMemoryError, env)
  else
    let (fails, after) := env.nextStringFailure
    if fits : fails = false ∧ length ≤ p.maxStringLength then
      (.ok (buffer.resize length env.garbage fits.2), after)
    else (.error .allocateFailed, after)

/-- The variables that the loops of `compress` and `decompress` work on. -/
structure Buffers (σ : Type) (p : Platform) where
  /-- What `state_ptr` points to. -/
  state : σ
  /-- `remaining_source` and `remaining_source_length` -/
  remainingSource : List Byte
  destinationValue : RString p
  destinationLength : Nat
  remainingDestinationBufferLength : Nat

/-- `increase_destination_buffer` -/
def increaseDestinationBuffer (destinationBufferLength : Nat) (buffers : Buffers σ p)
    (env : Environment) : Exit (Buffers σ p) × Environment :=
  if buffers.remainingDestinationBufferLength = destinationBufferLength then
    -- We want to write more data at once, than buffer has.
    (.error .notEnoughDestinationBuffer, env)
  else
    match lzwsExtResizeStringBuffer buffers.destinationValue
        (p.sizeAdd buffers.destinationLength destinationBufferLength) env with
    | (.ok destinationValue, env) =>
        (.ok { buffers with
          destinationValue := destinationValue
          remainingDestinationBufferLength := destinationBufferLength }, env)
    | (.error code, env) => (.error code, env)
    | (.raised exception, env) => (.raised exception, env)

/-! ## Compress -/

/--
What the wrapper function does: the codec is called with the tail of the string
as its window, writes through the pointer it was given, and lowers the counters.
-/
def Buffers.call (buffers : Buffers σ p) (native : Native σ Byte Byte ε) : Buffers σ p :=
  let reply := native buffers.state buffers.remainingSource buffers.remainingDestinationBufferLength
  { state := reply.state
    remainingSource := buffers.remainingSource.drop reply.consumed
    destinationValue := buffers.destinationValue.write buffers.destinationLength reply.written
    destinationLength := buffers.destinationLength
    remainingDestinationBufferLength :=
      buffers.remainingDestinationBufferLength - reply.written.length }

/-- `destination_length += prev_remaining_destination_buffer_length - remaining_...` -/
def Buffers.count (buffers : Buffers σ p) (prevRemainingDestinationBufferLength : Nat) :
    Buffers σ p :=
  { buffers with
    destinationLength := p.sizeAdd buffers.destinationLength
      (p.sizeSub prevRemainingDestinationBufferLength
        buffers.remainingDestinationBufferLength) }

/--
One turn of the loops over a codec: the macro `BUFFERED_COMPRESS` and the loop of
`decompress` differ in the codec call and in the results they make of its errors.
-/
def bufferedTurn (gvl : Bool) (native : Native σ Byte Byte ε) (resultOf : ε → ExtError)
    (destinationBufferLength : Nat) :
    Buffers σ p × Environment → Turn (Buffers σ p × Environment) (Exit (Buffers σ p) × Environment)
  | (buffers, env) =>
      match gvlWrap p gvl env with
      | (.before, env) => .leave (.raised .interrupt, env)
      | (.after, env) => .leave (.raised .interrupt, env)
      | (.nothing, env) =>
          let called := buffers.call native
          let counted := called.count buffers.remainingDestinationBufferLength
          match (native buffers.state buffers.remainingSource
              buffers.remainingDestinationBufferLength).status with
          | .error code => .leave (.error (resultOf code), env)
          | .ok => .leave (.ok counted, env)
          | .needsMore =>
              match increaseDestinationBuffer destinationBufferLength counted env with
              | (.ok buffers, env) => .again (buffers, env)
              | (.error code, env) => .leave (.error code, env)
              | (.raised exception, env) => .leave (.raised exception, env)

/-- `BUFFERED_COMPRESS`: every error of the codec is unexpected. -/
def bufferedCompress (gvl : Bool) (wrapper : Native σ Byte Byte CompressorError)
    (destinationBufferLength : Nat) :
    Buffers σ p × Environment →
      Turn (Buffers σ p × Environment) (Exit (Buffers σ p) × Environment) :=
  bufferedTurn gvl wrapper (fun _ => .unexpected) destinationBufferLength

/-- The variables at the start of `compress` and `decompress`. -/
def Buffers.start (state : σ) (source : List Byte) (destinationValue : RString p)
    (destinationBufferLength : Nat) : Buffers σ p where
  state := state
  remainingSource := source
  destinationValue := destinationValue
  destinationLength := 0
  remainingDestinationBufferLength := destinationBufferLength

/-- The resize after the loops: the string is cut down to what was written. -/
def Buffers.shrink (buffers : Buffers σ p) (env : Environment) :
    Exit (Buffers σ p) × Environment :=
  match lzwsExtResizeStringBuffer buffers.destinationValue buffers.destinationLength env with
  | (.ok destinationValue, env) => (.ok { buffers with destinationValue := destinationValue }, env)
  | (.error code, env) => (.error code, env)
  | (.raised exception, env) => (.raised exception, env)

/--
`compress`.  Each loop makes at most `fuel` turns; `none` means that this was not
enough.  Where 0 is returned, the final variables come with it.
-/
def compress (codec : CompressorCodec σ) (fuel : Nat) (state : σ) (source : List Byte)
    (destinationValue : RString p) (destinationBufferLength : Nat) (gvl : Bool)
    (env : Environment) : Option (Exit (Buffers σ p) × Environment) :=
  match run (bufferedCompress gvl codec.compress destinationBufferLength) fuel
      (.start state source destinationValue destinationBufferLength, env) with
  | none => none
  | some (.ok buffers, env) =>
      match run (bufferedCompress gvl codec.finishNative destinationBufferLength) fuel
          (buffers, env) with
      | none => none
      | some (.ok buffers, env) => some (buffers.shrink env)
      | some (.error code, env) => some (.error code, env)
      | some (.raised exception, env) => some (.raised exception, env)
  | some (.error code, env) => some (.error code, env)
  | some (.raised exception, env) => some (.raised exception, env)

/-! ## Decompress -/

/-- The results that `decompress` makes of the errors of `lzws_decompress`. -/
def decompressResult : DecompressorError → ExtError
  | .invalidMagicHeader => .validateFailed
  | .invalidMaxCodeBitLength => .validateFailed
  | .corruptedSource => .decompressorCorruptedSource
  | .allocateFailed => .unexpected
  | .other _ => .unexpected

/-- An error of `lzws_decompress` is never taken for a want of memory or of room. -/
theorem decompressResult_ne {result : ExtError}
    (other : result ∉ [.validateFailed, .decompressorCorruptedSource, .unexpected])
    (code : DecompressorError) : decompressResult code ≠ result := by
  rintro rfl
  apply other
  cases code <;> simp [decompressResult]

/-- `decompress`; fuel and final variables as for `compress`. -/
def decompress (codec : DecompressorCodec σ) (fuel : Nat) (state : σ) (source : List Byte)
    (destinationValue : RString p) (destinationBufferLength : Nat) (gvl : Bool)
    (env : Environment) : Option (Exit (Buffers σ p) × Environment) :=
  match run (bufferedTurn gvl codec.decompress decompressResult destinationBufferLength) fuel
      (.start state source destinationValue destinationBufferLength, env) with
  | none => none
  | some (.ok buffers, env) => some (buffers.shrink env)
  | some (.error code, env) => some (.error code, env)
  | some (.raised exception, env) => some (.raised exception, env)

/-! ## The exported functions -/

/-- How often a state was obtained from the codec and how often one was freed. -/
structure StateLedger where
  obtained : Nat
  freed : Nat
  deriving DecidableEq, Repr

namespace StateLedger

/-- No state has been obtained yet. -/
def empty : StateLedger := ⟨0, 0⟩

/-- `lzws_compressor_get_initial_state` or its sibling has returned 0. -/
def acquire (ledger : StateLedger) : StateLedger := { ledger with obtained := ledger.obtained + 1 }

/-- `lzws_compressor_free_state` or its sibling is called. -/
def free (ledger : StateLedger) : StateLedger := { ledger with freed := ledger.freed + 1 }

end StateLedger

/-- The end of a run of an exported function. -/
structure StringRun (p : Platform) where
  outcome : Except Raised (RString p)
  ledger : StateLedger
  environment : Environment

/-- A codec obtains a state, unless its allocation fails. -/
def obtainState (allocateFailed : ε) (initial : Except ε σ) (env : Environment) :
    Except ε σ × Environment :=
  let (fails, env) := env.nextNativeFailure
  (if fails then .error allocateFailed else initial, env)

/-- `lzws_compressor_get_initial_state` -/
def lzwsCompressorGetInitialState (codec : CompressorCodec σ) (options : CompressorOptions)
    (env : Environment) : Except CompressorError σ × Environment :=
  obtainState .allocateFailed (codec.getInitialState options) env

/-- `lzws_decompressor_get_initial_state` -/
def lzwsDecompressorGetInitialState (codec : DecompressorCodec σ) (options : DecompressorOptions)
    (env : Environment) : Except DecompressorError σ × Environment :=
  obtainState .allocateFailed (codec.getInitialState options) env

/-- The exception made of a failed `lzws_compressor_get_initial_state`. -/
def compressorInitialStateError : CompressorError → Raised
  | .allocateFailed => lzwsExtRaiseError .allocateFailed
  | .invalidMaxCodeBitLength => lzwsExtRaiseError .validateFailed
  | .other _ => lzwsExtRaiseError .unexpected

/-- The exception made of a failed `lzws_decompressor_get_initial_state`. -/
def decompressorInitialStateError : DecompressorError → Raised
  | .allocateFailed => lzwsExtRaiseError .allocateFailed
  | _ => lzwsExtRaiseError .unexpected

/-- `Check_Type(source_value, T_STRING)` -/
def checkString : Value p → Except Raised (RString p)
  | .string value => .ok value
  | _ => .error .typeError

/-- The checks common to both functions before they obtain a state. -/
def stringArguments {ω : Type} (getOptions : Hash p → Except Raised ω) (sourceValue : Value p)
    (options : Argument p) : Except Raised (RString p × Nat × Bool × ω) := do
  let source ← checkString sourceValue
  let options ← checkHash options
  let destinationBufferLength ← lzwsExtGetSizeOptionValue options .destinationBufferLength
  let gvl ← lzwsExtGetBoolOptionValue options .gvl
  let codecOptions ← getOptions options
  return (source, destinationBufferLength, gvl, codecOptions)

/-- The checks of `lzws_ext_compress_string`. -/
def compressStringArguments (codec : CompressorCodec σ) (sourceValue : Value p)
    (options : Argument p) : Except Raised (RString p × Nat × Bool × CompressorOptions) :=
  stringArguments (lzwsExtGetCompressorOptions codec.defaultOptions) sourceValue options

/-- The checks of `lzws_ext_decompress_string`. -/
def decompressStringArguments (codec : DecompressorCodec σ) (sourceValue : Value p)
    (options : Argument p) : Except Raised (RString p × Nat × Bool × DecompressorOptions) :=
  stringArguments (lzwsExtGetDecompressorOptions codec.defaultOptions) sourceValue options

/--
The frame that owns the state: it frees the state and raises or returns, unless
an exception jumps over it.
-/
def releaseState (ledger : StateLedger) : Exit (Buffers σ p) × Environment → StringRun p
  | (.ok buffers, env) => ⟨.ok buffers.destinationValue, ledger.free, env⟩
  | (.error code, env) => ⟨.error (lzwsExtRaiseError code), ledger.free, env⟩
  | (.raised exception, env) => ⟨.error exception, ledger, env⟩

/--
The common text of `lzws_ext_compress_string` and its sibling; `work` is what
`compress` or `decompress` does with the state and the string.
-/
def stringFunction {ω : Type} (arguments : Except Raised (RString p × Nat × Bool × ω))
    (getInitialState : ω → Environment → Except ε σ × Environment) (errorOf : ε → Raised)
    (defaultDestinationBufferLength : Nat)
    (work : σ → List Byte → RString p → Nat → Bool → Environment →
      Option (Exit (Buffers σ p) × Environment))
    (env : Environment) : Option (StringRun p) :=
  match arguments with
  | .error exception => some ⟨.error exception, .empty, env⟩
  | .ok (source, length, gvl, options) =>
      match getInitialState options env with
      | (.error code, env) => some ⟨.error (errorOf code), .empty, env⟩
      | (.ok state, env) =>
          let ledger := StateLedger.empty.acquire
          let destinationBufferLength :=
            if length = 0 then defaultDestinationBufferLength else length
          match lzwsExtCreateStringBuffer destinationBufferLength env with
          | (none, env) => some ⟨.error (lzwsExtRaiseError .allocateFailed), ledger.free, env⟩
          | (some destinationValue, env) =>
              (work state source.bytes destinationValue destinationBufferLength gvl env).map
                (releaseState ledger)

/-- `lzws_ext_compress_string` -/
def lzwsExtCompressString (codec : CompressorCodec σ) (fuel : Nat) (sourceValue : Value p)
    (options : Argument p) (env : Environment) : Option (StringRun p) :=
  stringFunction (compressStringArguments codec sourceValue options)
    (lzwsCompressorGetInitialState codec) compressorInitialStateError
    codec.defaultDestinationBufferLength (compress codec fuel) env

/-- `lzws_ext_decompress_string` -/
def lzwsExtDecompressString (codec : DecompressorCodec σ) (fuel : Nat) (sourceValue : Value p)
    (options : Argument p) (env : Environment) : Option (StringRun p) :=
  stringFunction (decompressStringArguments codec sourceValue options)
    (lzwsDecompressorGetInitialState codec) decompressorInitialStateError
    codec.defaultDestinationBufferLength (decompress codec fuel) env

end RubyLzws.Ext
