import RubyLzws.Ext.StreamLife

/-!
# `NativeCompressor`

The methods of `stream/compressor.c`, each as the common text with what the
compressor puts into it.
-/

namespace RubyLzws.Ext

open Library.Transducer

variable {σ : Type} {p : Platform}

/-- `lzws_ext_allocate_compressor` -/
def lzwsExtAllocateCompressor (world : World σ p) : World σ p := world.allocate

/-- The checks of `lzws_ext_initialize_compressor`. -/
def initializeCompressorArguments (codec : CompressorCodec σ) (options : Argument p) :
    Except Raised (Nat × Bool × CompressorOptions) :=
  initializeArguments (lzwsExtGetCompressorOptions codec.defaultOptions) options

/-- `lzws_ext_initialize_compressor` -/
def lzwsExtInitializeCompressor (codec : CompressorCodec σ) (options : Argument p)
    (world : World σ p) : Effect σ p :=
  initializeStream (initializeCompressorArguments codec options)
    (lzwsCompressorGetInitialState codec) compressorInitialStateError
    codec.createDestinationBuffer (·.quiet) world

/-- `lzws_ext_compress` -/
def lzwsExtCompress (codec : CompressorCodec σ) (sourceValue : Value p) (world : World σ p) :
    Effect σ p :=
  callStream codec.compress (fun _ => .unexpected) sourceValue world

/-- `lzws_ext_compressor_finish` -/
def lzwsExtCompressorFinish (codec : CompressorCodec σ) (world : World σ p) : Effect σ p :=
  finishStream codec.finish (fun _ => .unexpected) world

/-- `lzws_ext_compressor_read_result` -/
def lzwsExtCompressorReadResult (world : World σ p) : Effect σ p := readResultStream world

/-- `lzws_ext_compressor_close` -/
def lzwsExtCompressorClose (world : World σ p) : Effect σ p := closeStream world

/-- `free_compressor` -/
def freeCompressor (world : World σ p) : Option (World σ p) := freeStream world

/-! ## The exported methods -/

/-- The methods of `lzws_ext_compressor_exports`, with their arguments. -/
inductive CompressorMethod (p : Platform) where
  | initializeObject (options : Argument p)
  | write (source : Value p)
  | finish
  | readResult
  | close

/-- Call a method. -/
def CompressorMethod.call (codec : CompressorCodec σ) :
    CompressorMethod p → World σ p → Effect σ p
  | .initializeObject options => lzwsExtInitializeCompressor codec options
  | .write source => lzwsExtCompress codec source
  | .finish => lzwsExtCompressorFinish codec
  | .readResult => lzwsExtCompressorReadResult
  | .close => lzwsExtCompressorClose

/-- The calls that take a new state and a new buffer: `initialize`, where nothing fails. -/
def CompressorMethod.Opening (codec : CompressorCodec σ) :
    CompressorMethod p → World σ p → Prop
  | .initializeObject options, world =>
      InitializeSucceeds (initializeCompressorArguments codec options) codec.getInitialState
        codec.createDestinationBuffer (·.quiet) world
  | _, _ => False

/-- What each method of a compressor can do to its handles. -/
theorem CompressorMethod.step (codec : CompressorCodec σ) (method : CompressorMethod p)
    (world : World σ p) (sound : world.Sound) :
    ∃ after, (method.call codec world).world? = some after ∧
      LifeStep (method.Opening codec world) world after := by
  cases method with
  | initializeObject options => exact initializeStream_step sound
  | write source => exact (callStream_keepsHandles _ _ source sound).lifeStep
  | finish => exact (finishStream_keepsHandles _ _ sound).lifeStep
  | readResult => exact (readResultStream_keepsHandles sound).lifeStep
  | close => exact closeStream_step sound

/-- `Stream::NativeCompressor` -/
def nativeCompressor (codec : CompressorCodec σ) (p : Platform) :
    NativeClass σ p (CompressorMethod p) where
  call := CompressorMethod.call codec
  Opening := CompressorMethod.Opening codec
  step := CompressorMethod.step codec

end RubyLzws.Ext
