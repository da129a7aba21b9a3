import RubyLzws.Ext.StoredCodec
import RubyLzws.Ext.StringResult

/-!
# The string loops return the output of the codec

For a codec whose total output does not depend on window sizes, the returned
string is that output, whatever `destination_buffer_length` was.  The string that
the loops start with is the one `lzws_ext_create_string_buffer` made, so its
length is `destination_buffer_length`.
-/

namespace RubyLzws.Results.StringOutput

open Ext Library.Transducer

variable {σ τ : Type} {p : Platform}

/-- `lzws_compress` emits `fed` for the whole source, `lzws_compressor_finish` then `flushed`. -/
def CompressorEmits (codec : CompressorCodec σ) (state : σ) (source fed flushed : List Byte) :
    Prop :=
  ∃ middle last, Ends codec.compress .whole state source fed (.finished middle []) ∧
    Ends codec.finishNative .whole middle [] flushed (.finished last [])

/-- `lzws_decompress` emits `out` and finally has consumed all of the source but `rest`. -/
def DecompressorEmits (codec : DecompressorCodec σ) (state : σ) (source out rest : List Byte) :
    Prop :=
  ∃ last, Ends codec.decompress .whole state source out (.finished last rest)

theorem CompressorEmits.pairEnds {codec : CompressorCodec σ} {state : σ}
    {source fed flushed : List Byte} (emits : CompressorEmits codec state source fed flushed) :
    PairEnds codec.compress codec.finishNative .whole state source (fed ++ flushed)
      (.finished []) := by
  obtain ⟨middle, last, feeding, finishing⟩ := emits
  exact .finished feeding finishing

/-- What `compress` returns was emitted by the codec, in order. -/
theorem compress_emits {codec : CompressorCodec σ} (law : ConsumesAll codec.compress) {fuel : Nat}
    {state : σ} {source : List Byte} {destinationValue : RString p} {gvl : Bool}
    {env after : Environment} {buffers : Buffers σ p}
    (returned : compress codec fuel state source destinationValue destinationValue.length gvl env =
      some (.ok buffers, after)) :
    ∃ fed flushed, CompressorEmits codec state source fed flushed ∧
      buffers.destinationValue.bytes = fed ++ flushed := by
  cases compress_result law returned with
  | ok feeding finishing bytes => exact ⟨_, _, ⟨_, _, feeding, finishing⟩, bytes⟩

/-- What `decompress` returns was emitted by the codec, in order. -/
theorem decompress_emits {codec : DecompressorCodec σ} {fuel : Nat}
    {state : σ} {source : List Byte} {destinationValue : RString p} {gvl : Bool}
    {env after : Environment} {buffers : Buffers σ p}
    (returned : decompress codec fuel state source destinationValue destinationValue.length gvl
      env = some (.ok buffers, after)) :
    DecompressorEmits codec state source buffers.destinationValue.bytes
      buffers.remainingSource := by
  cases decompress_result returned with
  | ok ends => exact ⟨_, ends⟩

/--
**The string loops return exactly the codec's output.**  A string returned by
`compress` is what `lzws_compress` emits for the whole source, followed by what
`lzws_compressor_finish` emits; one returned by `decompress` is what
`lzws_decompress` emits for the source it consumed; and two runs that return
return the same, whatever their buffer lengths.
-/
theorem string_loops_return_codec_output {compressor : CompressorCodec σ}
    {decompressor : DecompressorCodec τ} {state : σ} {state' : τ} {source : List Byte}
    (consumesAll : ConsumesAll compressor.compress)
    (compressorAgrees : Agree
      (PairEnds compressor.compress compressor.finishNative .whole state source))
    (decompressorAgrees : Agree (EndsWith decompressor.decompress .whole state' source)) :
    (∀ {fuel : Nat} {destinationValue : RString p} {gvl : Bool} {env after : Environment}
        {buffers : Buffers σ p},
      compress compressor fuel state source destinationValue destinationValue.length gvl env =
        some (.ok buffers, after) →
      (∃ fed flushed, CompressorEmits compressor state source fed flushed) ∧
      (∀ fed flushed, CompressorEmits compressor state source fed flushed →
        buffers.destinationValue.bytes = fed ++ flushed) ∧
      ∀ {fuel' : Nat} {destinationValue' : RString p} {gvl' : Bool} {env' after' : Environment}
          {buffers' : Buffers σ p},
        compress compressor fuel' state source destinationValue' destinationValue'.length gvl'
          env' = some (.ok buffers', after') →
        buffers.destinationValue = buffers'.destinationValue) ∧
    (∀ {fuel : Nat} {destinationValue : RString p} {gvl : Bool} {env after : Environment}
        {buffers : Buffers τ p},
      decompress decompressor fuel state' source destinationValue destinationValue.length gvl env =
        some (.ok buffers, after) →
      (∃ out rest, DecompressorEmits decompressor state' source out rest) ∧
      (∀ out rest, DecompressorEmits decompressor state' source out rest →
        buffers.destinationValue.bytes = out ∧ buffers.remainingSource = rest) ∧
      ∀ {fuel' : Nat} {destinationValue' : RString p} {gvl' : Bool} {env' after' : Environment}
          {buffers' : Buffers τ p},
        decompress decompressor fuel' state' source destinationValue' destinationValue'.length
          gvl' env' = some (.ok buffers', after') →
        buffers.destinationValue = buffers'.destinationValue) := by
  constructor
  · intro fuel destinationValue gvl env after buffers returned
    obtain ⟨fed, flushed, emits, bytes⟩ := compress_emits consumesAll returned
    refine ⟨⟨fed, flushed, emits⟩, ?_, ?_⟩
    · intro otherFed otherFlushed otherEmits
      rw [bytes]
      exact (compressorAgrees emits.pairEnds otherEmits.pairEnds).1
    · intro fuel' destinationValue' gvl' env' after' buffers' returned'
      obtain ⟨fed', flushed', emits', bytes'⟩ := compress_emits consumesAll returned'
      apply RString.ext
      rw [bytes, bytes']
      exact (compressorAgrees emits.pairEnds emits'.pairEnds).1
  · intro fuel destinationValue gvl env after buffers returned
    obtain ⟨last, ends⟩ := decompress_emits returned
    refine ⟨⟨_, _, last, ends⟩, ?_, ?_⟩
    · rintro out rest ⟨otherLast, otherEnds⟩
      obtain ⟨same, verdict⟩ := decompressorAgrees ends.endsWith otherEnds.endsWith
      exact ⟨same, Verdict.finished.inj verdict⟩
    · intro fuel' destinationValue' gvl' env' after' buffers' returned'
      obtain ⟨last', ends'⟩ := decompress_emits returned'
      exact RString.ext (decompressorAgrees ends.endsWith ends'.endsWith).1

/-- An archive is made through windows of two and three bytes, and read through one and four. -/
theorem string_loops_return_codec_output_two_lengths :
    (∃ buffers buffers' after after',
      compress (p := .linux64) StoredCodec.compressor 16 (.header 0x90)
        [0x1f, 0x9d, 0x90, 7, 8] (.ofBytes [0, 0]) 2 false .calm = some (.ok buffers, after) ∧
      compress (p := .linux64) StoredCodec.compressor 16 (.header 0x90)
        [0x1f, 0x9d, 0x90, 7, 8] (.ofBytes [0, 0, 0]) 3 true .calm = some (.ok buffers', after') ∧
      buffers.destinationValue.bytes = [0x1f, 0x9d, 0x90, 0x1f, 0x9d, 0x90, 7, 8] ∧
      buffers.destinationValue = buffers'.destinationValue) ∧
    ∃ buffers buffers' after after',
      decompress (p := .linux64) StoredCodec.decompressor 16 .header [0x1f, 0x9d, 0x90, 7, 8]
        (.ofBytes [0]) 1 false .calm = some (.ok buffers, after) ∧
      decompress (p := .linux64) StoredCodec.decompressor 16 .header [0x1f, 0x9d, 0x90, 7, 8]
        (.ofBytes [0, 0, 0, 0]) 4 true .calm = some (.ok buffers', after') ∧
      buffers.destinationValue.bytes = [7, 8] ∧
      buffers.destinationValue = buffers'.destinationValue := by
  have results := string_loops_return_codec_output (p := .linux64)
    StoredCodec.compressor_consumesAll
    (StoredCodec.compressor_determined .whole (.header 0x90) [0x1f, 0x9d, 0x90, 7, 8]).agree
    (StoredCodec.decompressor_determined .whole StoredCodec.decompressor.defaultOptions
      [0x1f, 0x9d, 0x90, 7, 8]).agree
  constructor
  · have found : returnedBytes (compress (p := .linux64) StoredCodec.compressor 16 (.header 0x90)
        [0x1f, 0x9d, 0x90, 7, 8] (.ofBytes [0, 0]) 2 false .calm) =
          some [0x1f, 0x9d, 0x90, 0x1f, 0x9d, 0x90, 7, 8] := by
      decide +kernel
    have found' : (returnedBytes (compress (p := .linux64) StoredCodec.compressor 16
        (.header 0x90) [0x1f, 0x9d, 0x90, 7, 8] (.ofBytes [0, 0, 0]) 3 true .calm)).isSome =
          true := by
      decide +kernel
    obtain ⟨buffers, after, returned, _⟩ := exists_of_returnedBytes found
    obtain ⟨bytes', found'⟩ := Option.isSome_iff_exists.mp found'
    obtain ⟨buffers', after', returned', _⟩ := exists_of_returnedBytes found'
    obtain ⟨⟨fed, flushed, emits⟩, all, same⟩ := results.1 returned
    refine ⟨buffers, buffers', after, after', returned, returned', ?_, same returned'⟩
    rw [all fed flushed emits]
    exact (@StoredCodec.archive_of_ends StoredCodec.compressor.defaultOptions _ _ _
      emits.pairEnds).1
  · have found : returnedBytes (decompress (p := .linux64) StoredCodec.decompressor 16 .header
        [0x1f, 0x9d, 0x90, 7, 8] (.ofBytes [0]) 1 false .calm) = some [7, 8] := by
      decide +kernel
    have found' : (returnedBytes (decompress (p := .linux64) StoredCodec.decompressor 16 .header
        [0x1f, 0x9d, 0x90, 7, 8] (.ofBytes [0, 0, 0, 0]) 4 true .calm)).isSome = true := by
      decide +kernel
    obtain ⟨buffers, after, returned, bytes⟩ := exists_of_returnedBytes found
    obtain ⟨bytes', found'⟩ := Option.isSome_iff_exists.mp found'
    obtain ⟨buffers', after', returned', _⟩ := exists_of_returnedBytes found'
    obtain ⟨_, _, same⟩ := results.2 returned
    exact ⟨buffers, buffers', after, after', returned, returned', bytes, same returned'⟩

end RubyLzws.Results.StringOutput
