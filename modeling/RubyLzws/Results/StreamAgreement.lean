import RubyLzws.Ext.StoredCodec
import RubyLzws.Ext.StreamSession
import RubyLzws.Ext.StringMemory

/-!
# The stream and the string functions agree

For a codec that is a deterministic transducer, driving a native stream gives
what the string function gives: the same string, or the same exception.  Only
the surroundings can keep one of the two from its end.
-/

namespace RubyLzws.Results.StreamAgreement

open Ext Library.Transducer

variable {σ τ : Type} {p : Platform}

/-- What is assumed of the compressor of lzws, on `source`, from `state` on. -/
structure CompressorLaws (codec : CompressorCodec σ) (state : σ) (source : List Byte)
    (units : Nat) : Prop where
  consumesAll : ConsumesAll codec.compress
  compressUnits : UnitsAtMost codec.compress units
  finishUnits : UnitsAtMost codec.finishNative units
  determined : PairDeterminedOn codec.compress codec.finishNative .cut state source

/-- What is assumed of the decompressor of lzws, on `source`, from `state` on. -/
structure DecompressorLaws (codec : DecompressorCodec σ) (state : σ) (source : List Byte)
    (units : Nat) : Prop where
  decompressUnits : UnitsAtMost codec.decompress units
  determined : OutputDeterminedOn codec.decompress .cut state source

/-- `initialize` returned; the codec handed out `state`, the buffer has `capacity` bytes. -/
def InitializesCompressor (codec : CompressorCodec σ) (options : Argument p) (state : σ)
    (capacity : Nat) (before after : World σ p) : Prop :=
  ∃ length gvl compressorOptions,
    initializeCompressorArguments codec options = .ok (length, gvl, compressorOptions) ∧
    codec.getInitialState compressorOptions = .ok state ∧
    codec.createDestinationBuffer length compressorOptions.quiet = some capacity ∧
    lzwsExtInitializeCompressor codec options before = .returned .nil after

/-- `initialize` returned; the codec handed out `state`, the buffer has `capacity` bytes. -/
def InitializesDecompressor (codec : DecompressorCodec σ) (options : Argument p) (state : σ)
    (capacity : Nat) (before after : World σ p) : Prop :=
  ∃ length gvl decompressorOptions,
    initializeDecompressorArguments codec options = .ok (length, gvl, decompressorOptions) ∧
    codec.getInitialState decompressorOptions = .ok state ∧
    codec.createDestinationBuffer length decompressorOptions.quiet = some capacity ∧
    lzwsExtInitializeDecompressor codec options before = .returned .nil after

/-- The driving ends, and as expected unless the surroundings interrupt it. -/
def AlwaysEnds (drive : Nat → Option (Driven σ p)) (env : Environment)
    (expected : Driven σ p → Prop) : Prop :=
  (∃ fuel driven, drive fuel = some driven) ∧
    ∀ fuel driven, drive fuel = some driven → expected driven ∨
      ∃ exception world, driven = .raised exception world ∧ exception.FromEnvironment ∧
        ¬ env.Quiet

/--
The exit of a string function and the driving of a stream object belong together,
unless memory runs out for the string (`AllocateError`) or an exception jumps.
-/
structure Matches (exit : Exit (Buffers σ p)) (drive : Nat → Option (Driven σ p))
    (env : Environment) : Prop where
  enough : exit ≠ .error .notEnoughDestinationBuffer
  returned : ∀ buffers, exit = .ok buffers →
    AlwaysEnds drive env fun driven =>
      ∃ world, driven = .done buffers.destinationValue.bytes world
  raised : ∀ code, exit = .error code → code ≠ .allocateFailed →
    AlwaysEnds drive env fun driven => ∃ world, driven = .raised (lzwsExtRaiseError code) world

/--
A string function left with `exit` in the surroundings `stringEnv` agrees with the driving
of a stream object.  Only interrupts and failing allocations keep it from its end, and
strings that are too long for Ruby: what its codec emits, with a window of `length` bytes.
-/
structure Agrees (stringEnv : Environment) (emits : List Byte → Prop) (length : Nat)
    (exit : Exit (Buffers σ p)) (drive : Nat → Option (Driven σ p)) (env : Environment) :
    Prop extends Matches exit drive env where
  memory : exit = .error .allocateFailed → ¬ (stringEnv.Quiet ∧ RoomFor p emits length)
  jump : ∀ exception, exit = .raised exception → ¬ (stringEnv.Quiet ∧ RoomFor p emits length)

theorem Matches.agrees {stringEnv after : Environment} {emits : List Byte → Prop} {length : Nat}
    {exit : Exit (Buffers σ p)} {drive : Nat → Option (Driven σ p)} {env : Environment}
    (same : Matches exit drive env)
    (decided : stringEnv.Quiet → RoomFor p emits length → DecidedByCodec (exit, after)) :
    Agrees stringEnv emits length exit drive env := by
  refine ⟨same, ?_, ?_⟩
  · exact fun lacks ⟨quiet, room⟩ => (decided quiet room).2.1 lacks
  · exact fun exception raised ⟨quiet, room⟩ => (decided quiet room).2.2 exception raised

/-- Where the string function ran out of memory or was left by a jump, nothing is compared. -/
theorem matches_of_noMemory (drive : Nat → Option (Driven σ p)) (env : Environment) :
    Matches (.error .allocateFailed) drive env := by
  constructor
  · intro impossible
    cases impossible
  · intro buffers impossible
    cases impossible
  · intro code same other
    cases same
    exact absurd rfl other

theorem matches_of_raised (exception : Raised) (drive : Nat → Option (Driven σ p))
    (env : Environment) : Matches (.raised exception) drive env := by
  constructor
  · intro impossible
    cases impossible
  · intro buffers impossible
    cases impossible
  · intro code impossible
    cases impossible

/-- What complete sessions emit bounds what any session emits. -/
theorem boundedBy_of_determined {ν : Type} {emits : List Byte → Prop}
    {ends : List Byte → ν → Prop} (determined : Determined emits ends) {all : List Byte}
    {verdict : ν} (complete : ends all verdict) : BoundedBy emits all.length :=
  fun _ part => (determined.extends_to part complete).length_le

/-- A successful `initialize` opens an empty channel to the state it obtained. -/
theorem opens_of_returned {ε ω : Type} {arguments : Except Raised (Nat × Bool × ω)}
    {initial : ω → Except ε σ} {allocateFailed : ε} {errorOf : ε → Raised}
    {create : Nat → Bool → Option Nat} {quiet : ω → Bool} {length capacity : Nat} {gvl : Bool}
    {options : ω} {state : σ} {before world : World σ p}
    (resolved : arguments = .ok (length, gvl, options)) (obtained : initial options = .ok state)
    (made : create length (quiet options) = some capacity)
    (returned : initializeStream arguments
      (fun options => obtainState allocateFailed (initial options)) errorOf create quiet before =
        .returned .nil world) : ∃ gvl, world.Opens (.fresh state capacity gvl) := by
  cases object : before.object with
  | none =>
      unfold initializeStream at returned
      rw [object] at returned
      cases returned
  | some stream =>
      have result : InitializeResult arguments initial create quiet before
          (initializeStream arguments
            (fun options => obtainState allocateFailed (initial options)) errorOf create quiet
            before) := initializeStream_cases object
      rw [returned] at result
      cases result with
      | opened succeeds otherResolved otherObtained otherMade opened =>
          rw [resolved] at otherResolved
          cases otherResolved
          rw [obtained] at otherObtained
          cases otherObtained
          rw [made] at otherMade
          cases otherMade
          exact ⟨gvl, opened.opens⟩

/-! ## Compressor -/

section Compressor

variable {codec : CompressorCodec σ} {state : σ} {source : List Byte} {units : Nat}

/-- A successful `initialize` opens an empty channel to the state. -/
theorem opens_of_initializesCompressor {options : Argument p} {capacity : Nat}
    {before world : World σ p}
    (initializes : InitializesCompressor codec options state capacity before world) :
    ∃ gvl, world.Opens (.fresh state capacity gvl) := by
  obtain ⟨length, gvl, compressorOptions, resolved, obtained, made, returned⟩ := initializes
  exact opens_of_returned resolved obtained made returned

theorem compressor_matches (laws : CompressorLaws codec state source units)
    {options : Argument p} {capacity : Nat} {before world : World σ p}
    (initializes : InitializesCompressor codec options state capacity before world)
    (roomy : units ≤ capacity) {chunks : List (List Byte)} (cut : chunks.flatten = source)
    (fits : source.length ≤ p.maxStringLength) (schedule : Schedule)
    {destinationValue : RString p} (enough : units ≤ destinationValue.length) {fuel : Nat}
    {gvl : Bool} {env after : Environment} {exit : Exit (Buffers σ p)}
    (returned : compress codec fuel state source destinationValue destinationValue.length gvl env =
      some (exit, after)) :
    Matches exit (fun fuel => driveCompressor codec schedule fuel chunks world)
      world.environment := by
  obtain ⟨streamGvl, opens⟩ := opens_of_initializesCompressor initializes
  subst cut
  have drives : ∀ {all verdict},
      PairEnds codec.compress codec.finishNative .cut state chunks.flatten all verdict →
      ∃ fuel driven, driveCompressor codec schedule fuel chunks world = some driven :=
    fun complete => driveCompressor_ends laws.compressUnits laws.finishUnits laws.consumesAll roomy
      (boundedBy_of_determined laws.determined complete) opens rfl fits
  cases compress_result laws.consumesAll returned with
  | @ok buffers middle last fed flushed feeding finishing bytes =>
      have complete : PairEnds codec.compress codec.finishNative .cut state chunks.flatten
          (fed ++ flushed) (.finished []) := .finished feeding.toCut finishing
      constructor
      · intro impossible
        cases impossible
      · intro other same
        cases same
        refine ⟨drives complete, ?_⟩
        intro fuel driven driving
        cases driveCompressor_result laws.consumesAll opens rfl fits driving with
        | done finished =>
            obtain ⟨same, _⟩ := laws.determined.agree finished complete
            exact .inl ⟨_, by rw [same, bytes]⟩
        | failed failure => cases (laws.determined.agree failure complete).2
        | disturbed outside unquiet => exact .inr ⟨_, _, rfl, outside, unquiet⟩
      · intro code impossible
        cases impossible
  | @failed out code ends =>
      have complete := ends.toCut
      constructor
      · intro impossible
        cases impossible
      · intro buffers impossible
        cases impossible
      · intro other same _
        cases same
        refine ⟨drives complete, ?_⟩
        intro fuel driven driving
        cases driveCompressor_result laws.consumesAll opens rfl fits driving with
        | done finished => cases (laws.determined.agree finished complete).2
        | failed failure => exact .inl ⟨_, rfl⟩
        | disturbed outside unquiet => exact .inr ⟨_, _, rfl, outside, unquiet⟩
  | stalled called status nothing =>
      rcases called with rfl | rfl
      · exact absurd nothing (laws.compressUnits.not_stalled enough status)
      · exact absurd nothing (laws.finishUnits.not_stalled enough status)
  | noMemory => exact matches_of_noMemory _ _
  | raised outside => exact matches_of_raised _ _ _

end Compressor

/-! ## Decompressor -/

section Decompressor

variable {codec : DecompressorCodec σ} {state : σ} {source : List Byte} {units : Nat}

/-- A successful `initialize` opens an empty channel to the state. -/
theorem opens_of_initializesDecompressor {options : Argument p} {capacity : Nat}
    {before world : World σ p}
    (initializes : InitializesDecompressor codec options state capacity before world) :
    ∃ gvl, world.Opens (.fresh state capacity gvl) := by
  obtain ⟨length, gvl, decompressorOptions, resolved, obtained, made, returned⟩ := initializes
  exact opens_of_returned resolved obtained made returned

theorem decompressor_matches (laws : DecompressorLaws codec state source units)
    {options : Argument p} {capacity : Nat} {before world : World σ p}
    (initializes : InitializesDecompressor codec options state capacity before world)
    (roomy : units ≤ capacity) {chunks : List (List Byte)} (cut : chunks.flatten = source)
    (fits : source.length ≤ p.maxStringLength) (schedule : Schedule)
    {destinationValue : RString p} (enough : units ≤ destinationValue.length) {fuel : Nat}
    {gvl : Bool} {env after : Environment} {exit : Exit (Buffers σ p)}
    (returned : decompress codec fuel state source destinationValue destinationValue.length gvl
      env = some (exit, after)) :
    Matches exit (fun fuel => driveDecompressor codec schedule fuel chunks world)
      world.environment := by
  obtain ⟨streamGvl, opens⟩ := opens_of_initializesDecompressor initializes
  subst cut
  have drives : ∀ {all verdict},
      EndsWith codec.decompress .cut state chunks.flatten all verdict →
      ∃ fuel driven, driveDecompressor codec schedule fuel chunks world = some driven :=
    fun complete => driveDecompressor_ends laws.decompressUnits roomy
      (boundedBy_of_determined laws.determined ⟨_, complete, rfl⟩) opens rfl fits
  cases decompress_result returned with
  | @ok buffers ends =>
      have complete := ends.toCut.endsWith
      constructor
      · intro impossible
        cases impossible
      · intro other same
        cases same
        refine ⟨drives complete, ?_⟩
        intro fuel driven driving
        cases driveDecompressor_result opens rfl fits driving with
        | done finished =>
            obtain ⟨same, _⟩ := laws.determined.agree ⟨_, finished, rfl⟩ ⟨_, complete, rfl⟩
            exact .inl ⟨_, by rw [same]⟩
        | failed failure =>
            cases (laws.determined.agree ⟨_, failure, rfl⟩ ⟨_, complete, rfl⟩).2
        | disturbed outside unquiet => exact .inr ⟨_, _, rfl, outside, unquiet⟩
      · intro code impossible
        cases impossible
  | @failed out code ends =>
      have complete := ends.toCut.endsWith
      constructor
      · intro impossible
        cases code <;> cases impossible
      · intro buffers impossible
        cases impossible
      · intro other same _
        cases same
        refine ⟨drives complete, ?_⟩
        intro fuel driven driving
        cases driveDecompressor_result opens rfl fits driving with
        | done finished =>
            cases (laws.determined.agree ⟨_, finished, rfl⟩ ⟨_, complete, rfl⟩).2
        | failed failure =>
            cases (laws.determined.agree ⟨_, failure, rfl⟩ ⟨_, complete, rfl⟩).2
            exact .inl ⟨_, rfl⟩
        | disturbed outside unquiet => exact .inr ⟨_, _, rfl, outside, unquiet⟩
  | stalled session status nothing =>
      exact absurd nothing (laws.decompressUnits.not_stalled enough status)
  | noMemory => exact matches_of_noMemory _ _
  | raised outside => exact matches_of_raised _ _ _

end Decompressor

/--
**The stream and the string functions agree**, for every source, every way of
cutting it, every pair of buffer lengths that hold the largest unit, and every
placement of extra `read_result` calls.  The string functions end; where memory suffices
and nobody interrupts, they end with a string or with an error of the codec, and a driven
stream object ends with the same.
-/
theorem string_and_stream_agree {p : Platform} (compressor : CompressorCodec σ)
    (decompressor : DecompressorCodec τ) (source : RString p) (units : Nat)
    (chunks : List (List Byte)) (cut : chunks.flatten = source.bytes) (schedule : Schedule)
    (destinationValue : RString p) (enough : units ≤ destinationValue.length) (capacity : Nat)
    (roomy : units ≤ capacity) (options : Argument p) (gvl : Bool) (env : Environment) :
    (∀ (state : σ) (before world : World σ p),
      CompressorLaws compressor state source.bytes units →
      InitializesCompressor compressor options state capacity before world →
      (∃ fuel result, compress compressor fuel state source.bytes destinationValue
        destinationValue.length gvl env = some result) ∧
      ∀ (fuel : Nat) (exit : Exit (Buffers σ p)) (after : Environment),
        compress compressor fuel state source.bytes destinationValue destinationValue.length gvl
          env = some (exit, after) →
        Agrees env (PairSession compressor.compress compressor.finishNative .whole state
            source.bytes) destinationValue.length exit
          (fun fuel => driveCompressor compressor schedule fuel chunks world)
          world.environment) ∧
    (∀ (state : τ) (before world : World τ p),
      DecompressorLaws decompressor state source.bytes units →
      InitializesDecompressor decompressor options state capacity before world →
      (∃ fuel result, decompress decompressor fuel state source.bytes destinationValue
        destinationValue.length gvl env = some result) ∧
      ∀ (fuel : Nat) (exit : Exit (Buffers τ p)) (after : Environment),
        decompress decompressor fuel state source.bytes destinationValue destinationValue.length
          gvl env = some (exit, after) →
        Agrees env (Emits decompressor.decompress .whole state source.bytes)
          destinationValue.length exit
          (fun fuel => driveDecompressor decompressor schedule fuel chunks world)
          world.environment) := by
  constructor
  · intro state before world laws initializes
    refine ⟨compress_returns state source.bytes destinationValue gvl env, ?_⟩
    intro fuel exit after returned
    exact (compressor_matches laws initializes roomy cut source.length_le schedule enough
      returned).agrees fun quiet room => compress_quiet laws.consumesAll quiet room returned
  · intro state before world laws initializes
    refine ⟨decompress_returns state source.bytes destinationValue gvl env, ?_⟩
    intro fuel exit after returned
    exact (decompressor_matches laws initializes roomy cut source.length_le schedule enough
      returned).agrees fun quiet room => decompress_quiet quiet room returned

/-! ## Three bytes -/

/-- What is expected of a driving in quiet surroundings comes about. -/
theorem AlwaysEnds.expected {drive : Nat → Option (Driven σ p)} {env : Environment}
    {expected : Driven σ p → Prop} (ends : AlwaysEnds drive env expected) (quiet : env.Quiet) :
    ∃ fuel driven, drive fuel = some driven ∧ expected driven := by
  obtain ⟨⟨fuel, driven, driving⟩, always⟩ := ends
  refine ⟨fuel, driven, driving, ?_⟩
  rcases always fuel driven driving with expected | ⟨_, _, _, _, busy⟩
  · exact expected
  · exact absurd quiet busy

/--
Three bytes as one string through windows of two, and in chunks through a stream of three:
their archive is the same, and so is the text of that archive.
-/
theorem string_and_stream_agree_archive :
    (∃ buffers after world fuel driven last,
      compress (p := .linux64) StoredCodec.compressor 8 (.header 0x90) [1, 2, 3]
        (.ofBytes [0, 0]) 2 false .calm = some (.ok buffers, after) ∧
      lzwsExtInitializeCompressor (p := .linux64) StoredCodec.compressor
        (.hash (StoredCodec.options .linux64 3 true)) (World.start _ _ .calm).allocate =
          .returned .nil world ∧
      driveCompressor StoredCodec.compressor ⟨fun _ => 1, fun _ => 0, 0⟩ fuel [[1], [], [2, 3]]
        world = some driven ∧
      driven = .done buffers.destinationValue.bytes last) ∧
    ∃ buffers after world fuel driven last,
      decompress (p := .linux64) StoredCodec.decompressor 8 .header [0x1f, 0x9d, 0x90, 1, 2, 3]
        (.ofBytes [0, 0]) 2 false .calm = some (.ok buffers, after) ∧
      lzwsExtInitializeDecompressor (p := .linux64) StoredCodec.decompressor
        (.hash (StoredCodec.options .linux64 3 true)) (World.start _ _ .calm).allocate =
          .returned .nil world ∧
      driveDecompressor StoredCodec.decompressor ⟨fun _ => 0, fun _ => 1, 0⟩ fuel
        [[0x1f], [0x9d, 0x90, 1], [2, 3]] world = some driven ∧
      driven = .done buffers.destinationValue.bytes last := by
  constructor
  · have compressed : returnedBytes (compress (p := .linux64) StoredCodec.compressor 8
        (.header 0x90) [1, 2, 3] (.ofBytes [0, 0]) 2 false .calm) =
          some [0x1f, 0x9d, 0x90, 1, 2, 3] := by
      decide +kernel
    obtain ⟨buffers, after, returned, _⟩ := exists_of_returnedBytes compressed
    obtain ⟨world, initialized, quiet⟩ : ∃ world, lzwsExtInitializeCompressor (p := .linux64)
        StoredCodec.compressor (.hash (StoredCodec.options .linux64 3 true))
          (World.start _ _ .calm).allocate = .returned .nil world ∧ world.environment.Quiet :=
      ⟨_, rfl, Environment.calm_quiet⟩
    have laws : CompressorLaws StoredCodec.compressor (.header 0x90) [1, 2, 3] 2 :=
      ⟨StoredCodec.compressor_consumesAll, StoredCodec.compressor_unitsAtMost,
        StoredCodec.compressor_finish_unitsAtMost, StoredCodec.compressor_determined _ _ _⟩
    have initializes : InitializesCompressor StoredCodec.compressor
        (.hash (StoredCodec.options .linux64 3 true)) (.header 0x90) 3
        (World.start _ _ .calm).allocate world :=
      ⟨3, true, StoredCodec.compressor.defaultOptions, rfl, rfl, rfl, initialized⟩
    have agrees := ((string_and_stream_agree StoredCodec.compressor StoredCodec.decompressor
      (.ofBytes [1, 2, 3]) 2 [[1], [], [2, 3]] rfl ⟨fun _ => 1, fun _ => 0, 0⟩ (.ofBytes [0, 0])
      (Nat.le_refl 2) 3 (by decide) _ false .calm).1 _ _ _ laws initializes).2 8 _ after returned
    obtain ⟨fuel, driven, driving, last, same⟩ := (agrees.returned buffers rfl).expected quiet
    exact ⟨buffers, after, world, fuel, driven, last, returned, initialized, driving, same⟩
  · have decompressed : returnedBytes (decompress (p := .linux64) StoredCodec.decompressor 8
        .header [0x1f, 0x9d, 0x90, 1, 2, 3] (.ofBytes [0, 0]) 2 false .calm) =
          some [1, 2, 3] := by
      decide +kernel
    obtain ⟨buffers, after, returned, _⟩ := exists_of_returnedBytes decompressed
    obtain ⟨world, initialized, quiet⟩ : ∃ world, lzwsExtInitializeDecompressor (p := .linux64)
        StoredCodec.decompressor (.hash (StoredCodec.options .linux64 3 true))
          (World.start _ _ .calm).allocate = .returned .nil world ∧ world.environment.Quiet :=
      ⟨_, rfl, Environment.calm_quiet⟩
    have determined := StoredCodec.decompressor_determined .cut
      StoredCodec.decompressor.defaultOptions [0x1f, 0x9d, 0x90, 1, 2, 3]
    have laws : DecompressorLaws StoredCodec.decompressor .header [0x1f, 0x9d, 0x90, 1, 2, 3] 1 :=
      ⟨StoredCodec.decompressor_unitsAtMost, determined.output⟩
    have initializes : InitializesDecompressor StoredCodec.decompressor
        (.hash (StoredCodec.options .linux64 3 true)) .header 3
        (World.start _ _ .calm).allocate world :=
      ⟨3, true, StoredCodec.decompressor.defaultOptions, rfl, rfl, rfl, initialized⟩
    have agrees := ((string_and_stream_agree StoredCodec.compressor StoredCodec.decompressor
      (.ofBytes [0x1f, 0x9d, 0x90, 1, 2, 3]) 1 [[0x1f], [0x9d, 0x90, 1], [2, 3]] rfl
      ⟨fun _ => 0, fun _ => 1, 0⟩ (.ofBytes [0, 0]) (by decide) 3 (by decide) _ false .calm).2
        _ _ _ laws initializes).2 8 _ after returned
    obtain ⟨fuel, driven, driving, last, same⟩ := (agrees.returned buffers rfl).expected quiet
    exact ⟨buffers, after, world, fuel, driven, last, returned, initialized, driving, same⟩

end RubyLzws.Results.StreamAgreement
