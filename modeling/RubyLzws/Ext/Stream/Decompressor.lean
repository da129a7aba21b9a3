import RubyLzws.Ext.StreamLife

/-!
# `NativeDecompressor`

The methods of `stream/decompressor.c`, each as the common text with what the
decompressor puts into it.
-/

namespace RubyLzws.Ext

open Library.Transducer

variable {σ : Type} {p : Platform}

/-- `lzws_ext_allocate_decompressor` -/
def lzwsExtAllocateDecompressor (world : World σ p) : World σ p := world.allocate

/-- The checks of `lzws_ext_initialize_decompressor`. -/
def initializeDecompressorArguments (codec : DecompressorCodec σ) (options : Argument p) :
    Except Raised (Nat × Bool × DecompressorOptions) :=
  initializeArguments (lzwsExtGetDecompressorOptions codec.defaultOptions) options

/-- `lzws_ext_initialize_decompressor` -/
def lzwsExtInitializeDecompressor (codec : DecompressorCodec σ) (options : Argument p)
    (world : World σ p) : Effect σ p :=
  initializeStream (initializeDecompressorArguments codec options)
    (lzwsDecompressorGetInitialState codec) decompressorInitialStateError
    codec.createDestinationBuffer (·.quiet) world

/-- `lzws_ext_decompress`; its errors are those of `decompress` in `string.c`. -/
def lzwsExtDecompress (codec : DecompressorCodec σ) (sourceValue : Value p) (world : World σ p) :
    Effect σ p :=
  callStream codec.decompress decompressResult sourceValue world

/-- `lzws_ext_decompressor_read_result` -/
def lzwsExtDecompressorReadResult (world : World σ p) : Effect σ p := readResultStream world

/-- `lzws_ext_decompressor_close` -/
def lzwsExtDecompressorClose (world : World σ p) : Effect σ p := closeStream world

/-- `free_decompressor` -/
def freeDecompressor (world : World σ p) : Option (World σ p) := freeStream world

/-! ## The exported methods -/

/-- The methods of `lzws_ext_decompressor_exports`, with their arguments. -/
inductive DecompressorMethod (p : Platform) where
  | initializeObject (options : Argument p)
  | read (source : Value p)
  | readResult
  | close

/-- Call a method. -/
def DecompressorMethod.call (codec : DecompressorCodec σ) :
    DecompressorMethod p → World σ p → Effect σ p
  | .initializeObject options => lzwsExtInitializeDecompressor codec options
  | .read source => lzwsExtDecompress codec source
  | .readResult => lzwsExtDecompressorReadResult
  | .close => lzwsExtDecompressorClose

/-- The calls that take a new state and a new buffer: `initialize`, where nothing fails. -/
def DecompressorMethod.Opening (codec : DecompressorCodec σ) :
    DecompressorMethod p → World σ p → Prop
  | .initializeObject options, world =>
      InitializeSucceeds (initializeDecompressorArguments codec options) codec.getInitialState
        codec.createDestinationBuffer (·.quiet) world
  | _, _ => False

/-- What each method of a decompressor can do to its handles. -/
theorem DecompressorMethod.step (codec : DecompressorCodec σ) (method : DecompressorMethod p)
    (world : World σ p) (sound : world.Sound) :
    ∃ after, (method.call codec world).world? = some after ∧
      LifeStep (method.Opening codec world) world after := by
  cases method with
  | initializeObject options => exact initializeStream_step sound
  | read source => exact (callStream_keepsHandles _ _ source sound).lifeStep
  | readResult => exact (readResultStream_keepsHandles sound).lifeStep
  | close => exact closeStream_step sound

/-- `Stream::NativeDecompressor` -/
def nativeDecompressor (codec : DecompressorCodec σ) (p : Platform) :
    NativeClass σ p (DecompressorMethod p) where
  call := DecompressorMethod.call codec
  Opening := DecompressorMethod.Opening codec
  step := DecompressorMethod.step codec

end RubyLzws.Ext
