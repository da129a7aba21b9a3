import RubyLzws.Ext.StoredCodec
import RubyLzws.Ext.StringMemory

/-!
# The string functions in quiet surroundings

Where nothing interrupts a run and its output fits into a Ruby string with one window to
spare, the string functions are total: they return what the codec emits for the source,
or raise what it answers, and the buffer length makes no difference.
-/

namespace RubyLzws.Results.StringTotal

open Ext Library.Transducer

variable {σ τ ε : Type} {p : Platform}

/-- What the codec makes of a source in all; it is deterministic, with units of a bounded size. -/
structure CompressesTo (codec : CompressorCodec σ) (mode : Mode) (state : σ) (source : List Byte)
    (units : Nat) (archive : List Byte) (verdict : Verdict Byte CompressorError) : Prop where
  consumesAll : ConsumesAll codec.compress
  compressUnits : UnitsAtMost codec.compress units
  finishUnits : UnitsAtMost codec.finishNative units
  determined : PairDeterminedOn codec.compress codec.finishNative mode state source
  complete : PairEnds codec.compress codec.finishNative mode state source archive verdict

/-- What the codec makes of an archive in all; it is deterministic, with units of a bounded size. -/
structure DecompressesTo (codec : DecompressorCodec σ) (mode : Mode) (state : σ)
    (source : List Byte) (units : Nat) (text : List Byte)
    (verdict : Verdict Byte DecompressorError) : Prop where
  decompressUnits : UnitsAtMost codec.decompress units
  determined : OutputDeterminedOn codec.decompress mode state source
  complete : EndsWith codec.decompress mode state source text verdict

/-- What a string function makes of the verdict of its codec. -/
def outcomeOf (resultOf : ε → ExtError) (bytes : List Byte) :
    Verdict Byte ε → Except Raised (List Byte)
  | .finished _ => .ok bytes
  | .failed code => .error (lzwsExtRaiseError (resultOf code))

/-- A function ends for some fuel, and for every fuel that suffices it ends as expected. -/
structure EndsAs (function : Nat → Option (StringRun p)) (expected : Except Raised (List Byte)) :
    Prop where
  ends : ∃ fuel run, function fuel = some run
  outcome : ∀ fuel run, function fuel = some run → run.outcome.map RString.bytes = expected
  ledger : ∀ fuel run, function fuel = some run → run.ledger = ⟨1, 1⟩

/-- The state is freed where the work was not left by a jump. -/
theorem releaseState_freed {after : Environment} {exit : Exit (Buffers σ p)}
    (decided : DecidedByCodec (exit, after)) :
    (releaseState StateLedger.empty.acquire (exit, after)).ledger = ⟨1, 1⟩ := by
  cases exit with
  | ok buffers => rfl
  | error code => rfl
  | raised exception => exact absurd rfl (decided.2.2 exception)

/-! ## Compress -/

section Compress

variable {codec : CompressorCodec σ} {mode : Mode} {state : σ} {source archive : List Byte}
  {units : Nat} {verdict : Verdict Byte CompressorError} {destinationValue : RString p} {gvl : Bool}
  {env after : Environment} {fuel : Nat} {exit : Exit (Buffers σ p)}

theorem CompressesTo.roomFor
    (compresses : CompressesTo codec mode state source units archive verdict)
    {length : Nat} (room : archive.length + length ≤ p.maxStringLength) :
    RoomFor p (PairSession codec.compress codec.finishNative .whole state source) length := by
  intro emitted session
  have shorter :=
    (compresses.determined.extends_to (session.ofWhole mode) compresses.complete).length_le
  omega

theorem CompressesTo.outcome
    (compresses : CompressesTo codec mode state source units archive verdict)
    (enough : units ≤ destinationValue.length) (decided : DecidedByCodec (exit, after))
    (returned : compress codec fuel state source destinationValue destinationValue.length gvl env =
      some (exit, after)) :
    exit.outcome.map RString.bytes = outcomeOf (fun _ => .unexpected) archive verdict := by
  cases compress_result compresses.consumesAll returned with
  | ok feeding finishing bytes =>
      obtain ⟨same, rfl⟩ :=
        compresses.determined.agree compresses.complete
          (PairEnds.ofWhole mode (.finished feeding finishing))
      rw [same, ← bytes]
      rfl
  | failed ends =>
      obtain ⟨_, rfl⟩ :=
        compresses.determined.agree compresses.complete (PairEnds.ofWhole mode ends)
      rfl
  | stalled called status nothing =>
      rcases called with rfl | rfl
      · exact absurd nothing (compresses.compressUnits.not_stalled enough status)
      · exact absurd nothing (compresses.finishUnits.not_stalled enough status)
  | noMemory => exact absurd rfl decided.2.1
  | raised => exact absurd rfl (decided.2.2 _)

end Compress

/-! ## Decompress -/

section Decompress

variable {codec : DecompressorCodec σ} {mode : Mode} {state : σ} {source text : List Byte}
  {units : Nat} {verdict : Verdict Byte DecompressorError} {destinationValue : RString p}
  {gvl : Bool} {env after : Environment} {fuel : Nat} {exit : Exit (Buffers σ p)}

theorem DecompressesTo.roomFor
    (decompresses : DecompressesTo codec mode state source units text verdict)
    {length : Nat} (room : text.length + length ≤ p.maxStringLength) :
    RoomFor p (Emits codec.decompress .whole state source) length := by
  intro emitted session
  have shorter := (decompresses.determined.extends_to (session.ofWhole mode)
    ⟨_, decompresses.complete, rfl⟩).length_le
  omega

theorem DecompressesTo.outcome
    (decompresses : DecompressesTo codec mode state source units text verdict)
    (enough : units ≤ destinationValue.length) (decided : DecidedByCodec (exit, after))
    (returned : decompress codec fuel state source destinationValue destinationValue.length gvl
      env = some (exit, after)) :
    exit.outcome.map RString.bytes = outcomeOf decompressResult text verdict := by
  have agree : ∀ {bytes other}, EndsWith codec.decompress mode state source bytes other →
      text = bytes ∧ verdict.code = other.code := fun ends =>
    decompresses.determined.agree ⟨_, decompresses.complete, rfl⟩ ⟨_, ends, rfl⟩
  cases decompress_result returned with
  | ok ends =>
      obtain ⟨same, code⟩ := agree (ends.ofWhole mode).endsWith
      cases verdict with
      | finished rest =>
          rw [same]
          rfl
      | failed other => cases code
  | failed ends =>
      obtain ⟨_, code⟩ := agree (ends.ofWhole mode).endsWith
      cases verdict with
      | finished rest => cases code
      | failed other =>
          cases code
          rfl
  | stalled _ status nothing =>
      exact absurd nothing (decompresses.decompressUnits.not_stalled enough status)
  | noMemory => exact absurd rfl decided.2.1
  | raised => exact absurd rfl (decided.2.2 _)

end Decompress

/-- What is known of `work` is known of the function around it. -/
theorem endsAs_of_work {work : Nat → Option (Exit (Buffers σ p) × Environment)}
    {function : Nat → Option (StringRun p)} {expected : Except Raised (List Byte)}
    (around : ∀ fuel, function fuel = (work fuel).map (releaseState StateLedger.empty.acquire))
    (ends : ∃ fuel result, work fuel = some result)
    (results : ∀ fuel exit after, work fuel = some (exit, after) →
      DecidedByCodec (exit, after) ∧ exit.outcome.map RString.bytes = expected) :
    EndsAs function expected := by
  have inverted : ∀ fuel run, function fuel = some run → ∃ exit after,
      work fuel = some (exit, after) ∧
        run = releaseState StateLedger.empty.acquire (exit, after) := by
    intro fuel run executed
    rw [around fuel] at executed
    obtain ⟨⟨exit, after⟩, worked, same⟩ := Option.map_eq_some_iff.mp executed
    exact ⟨exit, after, worked, same.symm⟩
  constructor
  · obtain ⟨fuel, result, worked⟩ := ends
    refine ⟨fuel, releaseState StateLedger.empty.acquire result, ?_⟩
    rw [around fuel, worked]
    rfl
  · intro fuel run executed
    obtain ⟨exit, after, worked, rfl⟩ := inverted fuel run executed
    rw [releaseState_outcome]
    exact (results fuel exit after worked).2
  · intro fuel run executed
    obtain ⟨exit, after, worked, rfl⟩ := inverted fuel run executed
    exact releaseState_freed (results fuel exit after worked).1

section EndsAs

variable {source : RString p} {options : Argument p} {env : Environment} {mode : Mode}
  {units length : Nat} {gvl : Bool}

theorem CompressesTo.endsAs {codec : CompressorCodec σ} {compressorOptions : CompressorOptions}
    {state : σ} {archive : List Byte} {verdict : Verdict Byte CompressorError}
    (compresses : CompressesTo codec mode state source.bytes units archive verdict)
    (quiet : env.Quiet)
    (resolved : compressStringArguments codec (.string source) options =
      .ok (source, length, gvl, compressorOptions))
    (started : codec.getInitialState compressorOptions = .ok state)
    (enough : units ≤ windowLength length codec.defaultDestinationBufferLength)
    (room : archive.length + windowLength length codec.defaultDestinationBufferLength ≤
      p.maxStringLength) :
    EndsAs (fun fuel => lzwsExtCompressString codec fuel (.string source) options env)
      (outcomeOf (fun _ => .unexpected) archive verdict) := by
  obtain ⟨destinationValue, after, size, still, around⟩ :=
    stringFunction_quiet quiet resolved started (Nat.le_trans (Nat.le_add_left _ _) room)
  rw [← size] at enough room
  refine endsAs_of_work (fun fuel => around (compress codec fuel)) ?_ ?_
  · exact compress_returns state source.bytes destinationValue gvl after
  · intro fuel exit last returned
    have decided : DecidedByCodec (exit, last) :=
      compress_quiet compresses.consumesAll still (compresses.roomFor room) returned
    exact ⟨decided, compresses.outcome enough decided returned⟩

theorem DecompressesTo.endsAs {codec : DecompressorCodec σ}
    {decompressorOptions : DecompressorOptions} {state : σ} {text : List Byte}
    {verdict : Verdict Byte DecompressorError}
    (decompresses : DecompressesTo codec mode state source.bytes units text verdict)
    (quiet : env.Quiet)
    (resolved : decompressStringArguments codec (.string source) options =
      .ok (source, length, gvl, decompressorOptions))
    (started : codec.getInitialState decompressorOptions = .ok state)
    (enough : units ≤ windowLength length codec.defaultDestinationBufferLength)
    (room : text.length + windowLength length codec.defaultDestinationBufferLength ≤
      p.maxStringLength) :
    EndsAs (fun fuel => lzwsExtDecompressString codec fuel (.string source) options env)
      (outcomeOf decompressResult text verdict) := by
  obtain ⟨destinationValue, after, size, still, around⟩ :=
    stringFunction_quiet quiet resolved started (Nat.le_trans (Nat.le_add_left _ _) room)
  rw [← size] at enough room
  refine endsAs_of_work (fun fuel => around (decompress codec fuel)) ?_ ?_
  · exact decompress_returns state source.bytes destinationValue gvl after
  · intro fuel exit last returned
    have decided : DecidedByCodec (exit, last) :=
      decompress_quiet still (decompresses.roomFor room) returned
    exact ⟨decided, decompresses.outcome enough decided returned⟩

end EndsAs

/--
**The string functions are total in quiet surroundings.**  Whatever the options and the
buffer length, as long as it holds the largest unit and memory suffices for the output
and one window, both functions end with all that the codec emits, or with its error.
-/
theorem string_functions_total (compressor : CompressorCodec σ) (decompressor : DecompressorCodec τ)
    (source : RString p) (options : Argument p) (env : Environment) (quiet : env.Quiet)
    (units length : Nat) (gvl : Bool) :
    (∀ compressorOptions state archive verdict,
      compressStringArguments compressor (.string source) options =
        .ok (source, length, gvl, compressorOptions) →
      compressor.getInitialState compressorOptions = .ok state →
      CompressesTo compressor .whole state source.bytes units archive verdict →
      units ≤ windowLength length compressor.defaultDestinationBufferLength →
      archive.length + windowLength length compressor.defaultDestinationBufferLength ≤
        p.maxStringLength →
      EndsAs (fun fuel => lzwsExtCompressString compressor fuel (.string source) options env)
        (outcomeOf (fun _ => .unexpected) archive verdict)) ∧
    (∀ decompressorOptions state text verdict,
      decompressStringArguments decompressor (.string source) options =
        .ok (source, length, gvl, decompressorOptions) →
      decompressor.getInitialState decompressorOptions = .ok state →
      DecompressesTo decompressor .whole state source.bytes units text verdict →
      units ≤ windowLength length decompressor.defaultDestinationBufferLength →
      text.length + windowLength length decompressor.defaultDestinationBufferLength ≤
        p.maxStringLength →
      EndsAs (fun fuel => lzwsExtDecompressString decompressor fuel (.string source) options env)
        (outcomeOf decompressResult text verdict)) := by
  constructor
  · intro _ _ _ _ resolved started compresses enough room
    exact compresses.endsAs quiet resolved started enough room
  · intro _ _ _ _ resolved started decompresses enough room
    exact decompresses.endsAs quiet resolved started enough room

/-- An archive through windows of two bytes, and its text through windows of three. -/
theorem string_functions_total_archive :
    EndsAs (p := .linux64) (fun fuel => lzwsExtCompressString StoredCodec.compressor fuel
        (.string (.ofBytes [1, 2, 3])) (.hash (StoredCodec.options .linux64 2 false)) .calm)
      (.ok [0x1f, 0x9d, 0x90, 1, 2, 3]) ∧
    EndsAs (p := .linux64) (fun fuel => lzwsExtDecompressString StoredCodec.decompressor fuel
        (.string (.ofBytes [0x1f, 0x9d, 0x90, 1, 2])) (.hash (StoredCodec.options .linux64 3 true))
        .calm)
      (.ok [1, 2]) := by
  have compressed : returnedBytes (compress (p := .linux64) StoredCodec.compressor 8
      (.header 0x90) [1, 2, 3] (.ofBytes [0, 0]) 2 false .calm) =
        some [0x1f, 0x9d, 0x90, 1, 2, 3] := by
    decide +kernel
  have decompressed : returnedBytes (decompress (p := .linux64) StoredCodec.decompressor 8
      .header [0x1f, 0x9d, 0x90, 1, 2] (.ofBytes [0, 0]) 2 false .calm) = some [1, 2] := by
    decide +kernel
  constructor
  · obtain ⟨buffers, after, returned, bytes⟩ := exists_of_returnedBytes compressed
    cases compress_result StoredCodec.compressor_consumesAll returned with
    | ok feeding finishing whole =>
        rw [bytes] at whole
        have complete := PairEnds.finished feeding finishing
        rw [← whole] at complete
        exact (string_functions_total StoredCodec.compressor StoredCodec.decompressor
          (.ofBytes [1, 2, 3]) _ .calm Environment.calm_quiet 2 2 false).1 _ _ _ _ rfl rfl
          ⟨StoredCodec.compressor_consumesAll, StoredCodec.compressor_unitsAtMost,
            StoredCodec.compressor_finish_unitsAtMost, StoredCodec.compressor_determined _ _ _,
            complete⟩ (by decide) (by decide)
  · obtain ⟨buffers, after, returned, bytes⟩ := exists_of_returnedBytes decompressed
    cases decompress_result returned with
    | ok ends =>
        rw [bytes] at ends
        have determined := StoredCodec.decompressor_determined .whole
          StoredCodec.decompressor.defaultOptions [0x1f, 0x9d, 0x90, 1, 2]
        exact (string_functions_total StoredCodec.compressor StoredCodec.decompressor
          (.ofBytes [0x1f, 0x9d, 0x90, 1, 2]) (.hash (StoredCodec.options .linux64 3 true)) .calm
          Environment.calm_quiet 1 3 true).2 StoredCodec.decompressor.defaultOptions .header _ _ rfl
          rfl ⟨StoredCodec.decompressor_unitsAtMost, determined.output, ends.endsWith⟩ (by decide)
          (by decide)

end RubyLzws.Results.StringTotal
