import RubyLzws.Ext.Option
import RubyLzws.Library.Transducer

/-!
# The lzws library as the extension uses it

The library is not part of this repository.  Its functions are parameters here:
whatever they compute, a call consumes a prefix of the source it is shown and
fills a prefix of the window it is offered, advancing the caller's pointers and
counters by just that.
-/

namespace RubyLzws.Ext

open Library.Transducer

/-- Results of the compressor functions other than 0 and `NEEDS_MORE_DESTINATION`. -/
inductive CompressorError where
  | allocateFailed
  | invalidMaxCodeBitLength
  | other (code : Nat)
  deriving DecidableEq, Repr

/-- Results of the decompressor functions other than 0 and `NEEDS_MORE_DESTINATION`. -/
inductive DecompressorError where
  | allocateFailed
  | invalidMagicHeader
  | invalidMaxCodeBitLength
  | corruptedSource
  | other (code : Nat)
  deriving DecidableEq, Repr

/-- The compressor of lzws; `σ` is what `lzws_compressor_state_t` holds. -/
structure CompressorCodec (σ : Type) where
  /-- `LZWS_COMPRESSOR_DEFAULT_OPTIONS` -/
  defaultOptions : CompressorOptions
  /-- `lzws_compressor_get_initial_state`, where memory suffices. -/
  getInitialState : CompressorOptions → Except CompressorError σ
  /-- `lzws_compress` -/
  compress : Native σ Byte Byte CompressorError
  /-- `lzws_compressor_finish` -/
  finish : Finish σ Byte CompressorError
  /-- `LZWS_DEFAULT_DESTINATION_BUFFER_LENGTH_FOR_COMPRESSOR` -/
  defaultDestinationBufferLength : Nat
  defaultDestinationBufferLength_pos : 0 < defaultDestinationBufferLength
  /-- `lzws_create_destination_buffer_for_compressor`, where memory suffices: the length made. -/
  createDestinationBuffer : (length : Nat) → (quiet : Bool) → Option Nat

/-- The decompressor of lzws; `σ` is what `lzws_decompressor_state_t` holds. -/
structure DecompressorCodec (σ : Type) where
  /-- `LZWS_DECOMPRESSOR_DEFAULT_OPTIONS` -/
  defaultOptions : DecompressorOptions
  /-- `lzws_decompressor_get_initial_state`, where memory suffices. -/
  getInitialState : DecompressorOptions → Except DecompressorError σ
  /-- `lzws_decompress` -/
  decompress : Native σ Byte Byte DecompressorError
  /-- `LZWS_DEFAULT_DESTINATION_BUFFER_LENGTH_FOR_DECOMPRESSOR` -/
  defaultDestinationBufferLength : Nat
  defaultDestinationBufferLength_pos : 0 < defaultDestinationBufferLength
  /-- `lzws_create_destination_buffer_for_decompressor`, where memory suffices: the length made. -/
  createDestinationBuffer : (length : Nat) → (quiet : Bool) → Option Nat

variable {σ : Type}

/-- A whole source followed by a finish, seen as calls of one kind each. -/
abbrev CompressorCodec.finishNative (codec : CompressorCodec σ) :
    Native σ Byte Byte CompressorError := Native.ofFinish codec.finish

end RubyLzws.Ext
