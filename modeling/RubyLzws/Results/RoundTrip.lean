import RubyLzws.Ext.StoredCodec
import RubyLzws.Ext.StringOutcome
import RubyLzws.Lib.Resolution

/-!
# String round trips through the option pipeline

Both directions merge and validate their options in Ruby, resolve them in the
extension and run a codec with what came out.  Where the three options that the
archive does not tell mean the same on both sides, the text comes back.
-/

namespace RubyLzws.Results.RoundTrip

open Ext Lib Library.Transducer

variable {σ τ : Type} {p : Platform}

/-- The two structures agree on what the archive does not tell. -/
structure SameFormat (compressing : CompressorOptions) (decompressing : DecompressorOptions) :
    Prop where
  withoutMagicHeader : decompressing.withoutMagicHeader = compressing.withoutMagicHeader
  msb : decompressing.msb = compressing.msb
  unalignedBitGroups : decompressing.unalignedBitGroups = compressing.unalignedBitGroups

/-- What is assumed of lzws: its decoder inverts its encoder where the structures agree. -/
structure RoundTrips (compressor : CompressorCodec σ) (decompressor : DecompressorCodec τ) :
    Prop where
  consumesAll : ConsumesAll compressor.compress
  starts : ∀ options, ∃ state, decompressor.getInitialState options = .ok state
  decodes : ∀ {compressing : CompressorOptions} {decompressing : DecompressorOptions}
    {start : σ} {start' : τ} {source archive out : List Byte}
    {outcome : Outcome τ Byte DecompressorError},
    SameFormat compressing decompressing →
    compressor.getInitialState compressing = .ok start →
    decompressor.getInitialState decompressing = .ok start' →
    PairEnds compressor.compress compressor.finishNative .whole start source archive
      (.finished []) →
    Ends decompressor.decompress .whole start' archive out outcome →
    out = source ∧ outcome.verdict = .finished []

/-- The three format options of two hashes mean the same, `nil` being the default of the library. -/
structure ResolveAlike (compressor : CompressorCodec σ) (decompressor : DecompressorCodec τ)
    (compressing decompressing : Hash p) : Prop where
  withoutMagicHeader :
    (decompressing.get .withoutMagicHeader).resolved
        decompressor.defaultOptions.withoutMagicHeader =
      (compressing.get .withoutMagicHeader).resolved compressor.defaultOptions.withoutMagicHeader
  msb :
    (decompressing.get .msb).resolved decompressor.defaultOptions.msb =
      (compressing.get .msb).resolved compressor.defaultOptions.msb
  unalignedBitGroups :
    (decompressing.get .unalignedBitGroups).resolved
        decompressor.defaultOptions.unalignedBitGroups =
      (compressing.get .unalignedBitGroups).resolved compressor.defaultOptions.unalignedBitGroups

/-- The same three values mean the same where the defaults of the library agree. -/
theorem resolveAlike_of_same {compressor : CompressorCodec σ} {decompressor : DecompressorCodec τ}
    {compressing decompressing : Hash p}
    (defaults : SameFormat compressor.defaultOptions decompressor.defaultOptions)
    (withoutMagicHeader : decompressing.get .withoutMagicHeader =
      compressing.get .withoutMagicHeader)
    (msb : decompressing.get .msb = compressing.get .msb)
    (unalignedBitGroups : decompressing.get .unalignedBitGroups =
      compressing.get .unalignedBitGroups) :
    ResolveAlike compressor decompressor compressing decompressing := by
  constructor
  · rw [withoutMagicHeader, defaults.withoutMagicHeader]
  · rw [msb, defaults.msb]
  · rw [unalignedBitGroups, defaults.unalignedBitGroups]

/--
The exceptions by which decompressing may fail for want of a resource: memory, a
large enough buffer, a buffer length that is a Fixnum; or it was interrupted.
-/
inductive LacksResource (given : Hash p) (env : Environment) : Raised → Prop where
  | memory : LacksResource given env (lzwsExtRaiseError .allocateFailed)
  | buffer : LacksResource given env (lzwsExtRaiseError .notEnoughDestinationBuffer)
  | length (unfit : ¬ LengthFits given .destinationBufferLength) :
      LacksResource given env .typeError
  | surroundings {exception : Raised} (outside : exception.FromEnvironment)
      (busy : ¬ env.Quiet) : LacksResource given env exception

/-! ## From the hash to the structures -/

section Options

variable {validation : Validation p} {compressing decompressing returned returned' : Hash p}
  {names names' : List OptionName} {compressor : CompressorCodec σ}
  {decompressor : DecompressorCodec τ}

/-- Hashes that mean the same become structures of the same format. -/
theorem sameFormat_of_alike
    (accepted : Accepted compressorDefaults names (.hash compressing) returned)
    (accepted' : Accepted decompressorDefaults names' (.hash decompressing) returned')
    (alike : ResolveAlike compressor decompressor compressing decompressing) :
    SameFormat (returned.compressorOptions compressor.defaultOptions)
      (returned'.decompressorOptions decompressor.defaultOptions) := by
  constructor
  · unfold Hash.compressorOptions Hash.decompressorOptions
    rw [accepted.get_flag rfl accepted.flags.withoutMagicHeader,
      accepted'.get_flag rfl accepted'.flags.withoutMagicHeader]
    exact alike.withoutMagicHeader
  · unfold Hash.compressorOptions Hash.decompressorOptions
    rw [accepted.get_flag rfl accepted.flags.msb, accepted'.get_flag rfl accepted'.flags.msb]
    exact alike.msb
  · unfold Hash.compressorOptions Hash.decompressorOptions
    rw [accepted.get_flag rfl accepted.flags.unalignedBitGroups,
      accepted'.get_flag rfl accepted'.flags.unalignedBitGroups]
    exact alike.unalignedBitGroups

/-- Passed checks hand on the string and the structure that the hash describes. -/
theorem stringArguments_ok {ω : Type} {getOptions : Hash p → Except Raised ω} {options : ω}
    {value source : RString p} {length : Nat} {gvl : Bool}
    (resolved : stringArguments getOptions (.string value) (.hash returned) =
      .ok (source, length, gvl, options)) :
    source = value ∧ getOptions returned = .ok options := by
  obtain ⟨_, checked, resolved⟩ := bind_eq_ok.mp resolved
  obtain ⟨_, hash, resolved⟩ := bind_eq_ok.mp resolved
  cases checked
  cases hash
  obtain ⟨_, _, resolved⟩ := bind_eq_ok.mp resolved
  obtain ⟨_, _, resolved⟩ := bind_eq_ok.mp resolved
  obtain ⟨_, resolvedOptions, resolved⟩ := bind_eq_ok.mp resolved
  cases resolved
  exact ⟨rfl, resolvedOptions⟩

end Options

/-! ## Both directions -/

/-- A returned archive is what complete sessions of the codec emitted for the source. -/
theorem compressed_pairEnds {compressor : CompressorCodec σ} (law : ConsumesAll compressor.compress)
    {returned : Hash p} (valid : returned.CompressorValid) {fuel : Nat} {value archive : RString p}
    {env : Environment} {run : StringRun p}
    (executed : lzwsExtCompressString compressor fuel (.string value) (.hash returned) env =
      some run)
    (outcome : run.outcome = .ok archive) :
    ∃ state, compressor.getInitialState (returned.compressorOptions compressor.defaultOptions) =
        .ok state ∧
      PairEnds compressor.compress compressor.finishNative .whole state value.bytes archive.bytes
        (.finished []) := by
  have result := lzwsExtCompressString_result law executed
  rw [outcome] at result
  generalize ended : (Except.ok archive : Except Raised (RString p)) = left at result
  cases result with
  | refused => cases ended
  | noState => cases ended
  | noMemory => cases ended
  | @ended source length gvl compressorOptions state exit resolved initial result =>
      obtain ⟨rfl, described⟩ := stringArguments_ok resolved
      rw [lzwsExtGetCompressorOptions_ok valid] at described
      cases described
      cases result with
      | ok feeding finishing bytes =>
          cases ended
          refine ⟨state, initial, ?_⟩
          rw [bytes]
          exact .finished feeding finishing
      | failed => cases ended
      | stalled => cases ended
      | noMemory => cases ended
      | raised => cases ended

/--
**Strings survive the round trip.**  Take two hashes that the Ruby validation
accepts and whose format options mean the same.  If compressing a string under
the one returns an archive, then decompressing the archive under the other ends,
and unless a resource is lacking it returns the string.
-/
theorem string_round_trip {compressor : CompressorCodec σ} {decompressor : DecompressorCodec τ}
    (law : RoundTrips compressor decompressor) (validation : Validation p)
    {compressing decompressing returned returned' : Hash p} {names names' : List OptionName}
    (accepted : getCompressorOptions validation (.hash compressing) names = .ok returned)
    (accepted' : getDecompressorOptions validation (.hash decompressing) names' = .ok returned')
    (listed : OptionName.destinationBufferLength ∈ names')
    (alike : ResolveAlike compressor decompressor compressing decompressing)
    {fuel : Nat} {value archive : RString p} {env : Environment} {run : StringRun p}
    (executed : lzwsExtCompressString compressor fuel (.string value) (.hash returned) env =
      some run)
    (compressed : run.outcome = .ok archive) (env' : Environment) :
    (∃ fuel' run', lzwsExtDecompressString decompressor fuel' (.string archive)
      (.hash returned') env' = some run') ∧
    ∀ fuel' run', lzwsExtDecompressString decompressor fuel' (.string archive)
        (.hash returned') env' = some run' →
      run'.outcome = .ok value ∨
        ∃ exception, run'.outcome = .error exception ∧
          LacksResource decompressing env' exception := by
  refine ⟨lzwsExtDecompressString_returns _ _ _ _, ?_⟩
  intro fuel' run' executed'
  obtain ⟨checked, valid⟩ := getCompressorOptions_accepted accepted
  have checked' := getDecompressorOptions_accepted accepted'
  obtain ⟨state, initial, pairEnds⟩ :=
    compressed_pairEnds law.consumesAll valid executed compressed
  have same := sameFormat_of_alike checked checked' alike
  have result := lzwsExtDecompressString_result executed'
  generalize run'.outcome = outcome at result ⊢
  cases result with
  | refused refused =>
      have resolves : ResolvesIff
          (decompressStringArguments decompressor (.string archive) (.hash returned'))
          (LengthFits decompressing .destinationBufferLength) :=
        one_length_resolvesIff _ checked' listed
          ⟨_, lzwsExtGetDecompressorOptions_ok checked'.flags _⟩
      by_cases fits : LengthFits decompressing .destinationBufferLength
      · obtain ⟨_, resolved⟩ := resolves.succeeds_iff.mpr fits
        rw [resolved] at refused
        cases refused
      · rw [resolves.typeError fits] at refused
        cases refused
        exact .inr ⟨_, rfl, .length fits⟩
  | @noState source length gvl decompressorOptions code resolved initial' =>
      obtain ⟨started, starts⟩ := law.starts decompressorOptions
      rw [starts] at initial'
      cases initial'
  | noMemory => exact .inr ⟨_, rfl, .memory⟩
  | @ended source length gvl decompressorOptions state' exit resolved initial' result calm =>
      obtain ⟨rfl, described⟩ := stringArguments_ok resolved
      rw [lzwsExtGetDecompressorOptions_ok checked'.flags] at described
      cases described
      cases result with
      | @ok buffers ends =>
          refine .inl (congrArg Except.ok (RString.ext ?_))
          exact (law.decodes same initial initial' pairEnds ends).1
      | failed ends => cases (law.decodes same initial initial' pairEnds ends).2
      | stalled => exact .inr ⟨_, rfl, .buffer⟩
      | noMemory => exact .inr ⟨_, rfl, .memory⟩
      | raised outside =>
          exact .inr ⟨_, rfl, .surroundings outside fun quiet => calm quiet _ rfl⟩

/-! ## The stored codec -/

theorem stored_roundTrips : RoundTrips StoredCodec.compressor StoredCodec.decompressor := by
  constructor
  · exact StoredCodec.compressor_consumesAll
  · exact fun options => ⟨StoredCodec.decompressingStart options, rfl⟩
  · intro compressing decompressing start start' source archive out outcome same initial initial'
      pairEnds ends
    have begins : start = StoredCodec.compressingStart compressing := by
      unfold StoredCodec.compressor at initial
      dsimp only at initial
      split at initial
      · cases initial
        rfl
      · cases initial
    cases initial'
    rw [begins] at pairEnds
    rw [(StoredCodec.archive_of_ends pairEnds).1] at ends
    exact StoredCodec.source_of_ends same.withoutMagicHeader ends

/-- One byte under default options, compressed with the lock held and decompressed without it. -/
theorem string_round_trip_stored :
    ∃ returned returned' archive run, getCompressorOptions (documentedValidation .linux64)
        (.hash (StoredCodec.options .linux64 2 true)) [.destinationBufferLength] = .ok returned ∧
      getDecompressorOptions (documentedValidation .linux64)
        (.hash (StoredCodec.options .linux64 3 false)) [.destinationBufferLength] =
          .ok returned' ∧
      lzwsExtCompressString StoredCodec.compressor 8 (.string (.ofBytes [7]))
        (.hash returned) .calm = some run ∧
      run.outcome = .ok archive ∧
      ∃ run', lzwsExtDecompressString StoredCodec.decompressor 8 (.string archive)
          (.hash returned') .calm = some run' ∧ run'.outcome = .ok (.ofBytes [7]) := by
  have found : ((lzwsExtCompressString StoredCodec.compressor 8
      (.string (.ofBytes [7])) (.hash (mergedOptions compressorDefaults
        [.destinationBufferLength] (StoredCodec.options .linux64 2 true))) .calm).bind fun run =>
          run.outcome.toOption.map fun archive => archive.bytes) =
      some [0x1f, 0x9d, 0x90, 7] := by
    decide +kernel
  obtain ⟨run, executed, read⟩ := Option.bind_eq_some_iff.mp found
  obtain ⟨archive, returned, bytes⟩ := Option.map_eq_some_iff.mp read
  have compressed : run.outcome = .ok archive := ok_of_toOption returned
  have accepted : getCompressorOptions (documentedValidation .linux64)
      (.hash (StoredCodec.options .linux64 2 true)) [.destinationBufferLength] =
        .ok (mergedOptions compressorDefaults [.destinationBufferLength]
          (StoredCodec.options .linux64 2 true)) := rfl
  have accepted' : getDecompressorOptions (documentedValidation .linux64)
      (.hash (StoredCodec.options .linux64 3 false)) [.destinationBufferLength] =
        .ok (mergedOptions decompressorDefaults [.destinationBufferLength]
          (StoredCodec.options .linux64 3 false)) := rfl
  obtain ⟨_, result⟩ := string_round_trip stored_roundTrips
    (documentedValidation .linux64) accepted accepted' (by decide)
    (resolveAlike_of_same ⟨rfl, rfl, rfl⟩ rfl rfl rfl) executed compressed .calm
  -- The decompression of this archive does return, so that it returns the source.
  have ends : ((lzwsExtDecompressString StoredCodec.decompressor 8
      (.string (.ofBytes [0x1f, 0x9d, 0x90, 7])) (.hash (mergedOptions decompressorDefaults
        [.destinationBufferLength] (StoredCodec.options .linux64 3 false))) .calm).bind fun run =>
          run.outcome.toOption).isSome = true := by
    decide +kernel
  have whole : archive = .ofBytes [0x1f, 0x9d, 0x90, 7] := RString.ext bytes
  rw [← whole] at ends
  obtain ⟨text, found'⟩ := Option.isSome_iff_exists.mp ends
  obtain ⟨run', decompressed, read'⟩ := Option.bind_eq_some_iff.mp found'
  have returned' : run'.outcome = .ok text := ok_of_toOption read'
  refine ⟨_, _, archive, run, accepted, accepted', executed, compressed, run', decompressed, ?_⟩
  rcases result 8 run' decompressed with same | ⟨_, failed, _⟩
  · exact same
  · rw [returned'] at failed
    cases failed

end RubyLzws.Results.RoundTrip
