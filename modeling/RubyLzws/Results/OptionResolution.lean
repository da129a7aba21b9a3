import RubyLzws.Ext.Io
import RubyLzws.Ext.StoredCodec
import RubyLzws.Ext.Stream.Compressor
import RubyLzws.Ext.Stream.Decompressor
import RubyLzws.Lib.Resolution

/-!
# What Ruby accepts and what the extension resolves

A hash returned by the Ruby validation is read by one of six entries of the
extension, each with its own checks around the options.
-/

namespace RubyLzws.Results.OptionResolution

open Ext Lib

variable {σ τ φ : Type} {p : Platform}

/--
**What the extension makes of a hash that Ruby accepted.**  Resolving it succeeds
just if the buffer lengths that the entry reads are Fixnums where the caller gave
them, and raises a `TypeError` otherwise: at the string functions, at
`initialize`, and, with both lengths, at the file functions.
-/
theorem accepted_options_resolve_iff_lengths_fit (validation : Validation p)
    (compressor : CompressorCodec σ) (decompressor : DecompressorCodec τ) (files : FileCodec)
    (given returned : Hash p) (names : List OptionName)
    (listed : OptionName.destinationBufferLength ∈ names)
    (value : RString p) (source : List Byte) (destination : φ) :
    (getCompressorOptions validation (.hash given) names = .ok returned →
      ResolvesIff (compressStringArguments compressor (.string value) (.hash returned))
        (LengthFits given .destinationBufferLength) ∧
      ResolvesIff (initializeCompressorArguments compressor (.hash returned))
        (LengthFits given .destinationBufferLength) ∧
      (OptionName.sourceBufferLength ∈ names →
        ResolvesIff
          (compressIoArguments files (.stdio source) (.stdio destination) (.hash returned))
          (LengthFits given .sourceBufferLength ∧
            LengthFits given .destinationBufferLength))) ∧
    (getDecompressorOptions validation (.hash given) names = .ok returned →
      ResolvesIff (decompressStringArguments decompressor (.string value) (.hash returned))
        (LengthFits given .destinationBufferLength) ∧
      ResolvesIff (initializeDecompressorArguments decompressor (.hash returned))
        (LengthFits given .destinationBufferLength) ∧
      (OptionName.sourceBufferLength ∈ names →
        ResolvesIff
          (decompressIoArguments files (.stdio source) (.stdio destination) (.hash returned))
          (LengthFits given .sourceBufferLength ∧
            LengthFits given .destinationBufferLength))) := by
  constructor
  · intro checked
    obtain ⟨accepted, valid⟩ := getCompressorOptions_accepted checked
    refine ⟨?_, ?_, ?_⟩
    · exact one_length_resolvesIff _ accepted listed ⟨_, lzwsExtGetCompressorOptions_ok valid _⟩
    · exact one_length_resolvesIff _ accepted listed ⟨_, lzwsExtGetCompressorOptions_ok valid _⟩
    · intro sourceListed
      exact two_lengths_resolvesIff _ accepted sourceListed listed
        ⟨_, lzwsExtGetCompressorOptions_ok valid _⟩
  · intro checked
    have accepted := getDecompressorOptions_accepted checked
    refine ⟨?_, ?_, ?_⟩
    · exact one_length_resolvesIff _ accepted listed
        ⟨_, lzwsExtGetDecompressorOptions_ok accepted.flags _⟩
    · exact one_length_resolvesIff _ accepted listed
        ⟨_, lzwsExtGetDecompressorOptions_ok accepted.flags _⟩
    · intro sourceListed
      exact two_lengths_resolvesIff _ accepted sourceListed listed
        ⟨_, lzwsExtGetDecompressorOptions_ok accepted.flags _⟩

/-! ## A long buffer -/

/-- `{ :destination_buffer_length => number }` -/
def lengthOnly (p : Platform) (number : Int) : Hash p
  | .destinationBufferLength => some (.integer number)
  | _ => none

/-- A buffer of 4096 bytes resolves. -/
theorem accepted_options_resolve_iff_lengths_fit_short :
    ∃ returned,
      getCompressorOptions (documentedValidation .linux64) (.hash (lengthOnly .linux64 4096))
        [.destinationBufferLength] = .ok returned ∧
      ∃ resolved, compressStringArguments StoredCodec.compressor (.string (.ofBytes []))
        (.hash returned) = .ok resolved := by
  refine ⟨_, rfl, ?_⟩
  refine ((accepted_options_resolve_iff_lengths_fit (documentedValidation .linux64)
    StoredCodec.compressor StoredCodec.decompressor ⟨StoredCodec.compressor.defaultOptions,
      StoredCodec.decompressor.defaultOptions, fun _ _ _ _ => [], fun _ _ _ _ => []⟩
    (lengthOnly .linux64 4096) _ [.destinationBufferLength] (by decide)
    (.ofBytes []) [] ()).1 rfl).1.succeeds_iff.mpr ?_
  rintro number ⟨⟩
  decide

/-- A buffer of `2 ** 62` bytes passes the validation; the extension raises a `TypeError`. -/
theorem long_buffer_accepted_but_not_resolved :
    ∃ returned,
      getCompressorOptions (documentedValidation .linux64) (.hash (lengthOnly .linux64 (2 ^ 62)))
        [.destinationBufferLength] = .ok returned ∧
      compressStringArguments StoredCodec.compressor (.string (.ofBytes []))
        (.hash returned) = .error .typeError :=
  ⟨_, rfl, rfl⟩

end RubyLzws.Results.OptionResolution
