import RubyLzws.Results.FileDelivery
import RubyLzws.Results.RoundTrip
import RubyLzws.Results.StreamAgreement
import RubyLzws.Results.StringTotal

/-!
# Archives are interchangeable

An archive does not tell who wrote it: the string function, the file function and a driven
stream object write the same format, on every platform and however the source was cut, and
each of them reads it back.  The calls of the file functions are those that returned with
their write-outs done.
-/

namespace RubyLzws.Results.Interchange

open Ext Library.StdioFile Library.Transducer RoundTrip StringTotal

variable {σ τ φ : Type} {p q : Platform}

/-- How a driven object ended, for its caller. -/
def outcome? : Driven σ p → Option (Except Raised (List Byte))
  | .done results _ => some (.ok results)
  | .raised exception _ => some (.error exception)
  | .undefined => none

/-- A stream object that was opened with these options, on a state and a buffer of `capacity`. -/
structure OpensCompressor (codec : CompressorCodec σ) (options : CompressorOptions) (state : σ)
    (capacity : Nat) (world : World σ p) : Prop where
  started : codec.getInitialState options = .ok state
  opened : ∃ argument length gvl before,
    initializeCompressorArguments codec argument = .ok (length, gvl, options) ∧
    codec.createDestinationBuffer length options.quiet = some capacity ∧
    lzwsExtInitializeCompressor codec argument before = .returned .nil world

/-- A stream object that was opened with these options, on a state and a buffer of `capacity`. -/
structure OpensDecompressor (codec : DecompressorCodec σ) (options : DecompressorOptions)
    (state : σ) (capacity : Nat) (world : World σ p) : Prop where
  started : codec.getInitialState options = .ok state
  opened : ∃ argument length gvl before,
    initializeDecompressorArguments codec argument = .ok (length, gvl, options) ∧
    codec.createDestinationBuffer length options.quiet = some capacity ∧
    lzwsExtInitializeDecompressor codec argument before = .returned .nil world

/-- A file function returned, and every write-out to a new destination `file` succeeded. -/
structure Delivers (stdio : Stdio φ Byte) (run : IoRun φ) (file : φ) (delivered : List Byte) :
    Prop where
  new : stdio.content file = []
  returned : run.outcome = .ok ()
  left : ∃ after, run.destination = .stdio after ∧ stdio.failures after = stdio.failures file ∧
    stdio.delivered after = delivered

/-- The three ways to write an archive of a source. -/
inductive Writes (codec : CompressorCodec σ) (files : FileCodec) (p : Platform)
    (options : CompressorOptions) : List Byte → List Byte → Prop where
  | string {source archive : RString p} {argument : Argument p} {length fuel : Nat} {gvl : Bool}
      {env : Environment} {run : StringRun p}
      (resolved : compressStringArguments codec (.string source) argument =
        .ok (source, length, gvl, options))
      (executed : lzwsExtCompressString codec fuel (.string source) argument env = some run)
      (returned : run.outcome = .ok archive) :
      Writes codec files p options source.bytes archive.bytes
  | stream {state : σ} {capacity fuel : Nat} {world after : World σ p} {archive : List Byte}
      {chunks : List (List Byte)} {schedule : Schedule}
      (opens : OpensCompressor codec options state capacity world)
      (fits : chunks.flatten.length ≤ p.maxStringLength)
      (driven : driveCompressor codec schedule fuel chunks world = some (.done archive after)) :
      Writes codec files p options chunks.flatten archive
  | file {φ : Type} {stdio : Stdio φ Byte} (lawful : stdio.Lawful) {source archive : List Byte}
      {file : φ} {argument : Argument p} {arguments : IoArguments φ CompressorOptions}
      {env : Environment}
      (resolved : compressIoArguments files (.stdio source) (.stdio file) argument = .ok arguments)
      (described : arguments.options = options)
      (delivers : Delivers stdio
        (lzwsExtCompressIo stdio files (.stdio source) (.stdio file) argument env) file archive) :
      Writes codec files p options source archive

/--
The three ways to read an archive, in surroundings, with how that ended.  A file function
counts only where it returned with its write-outs done; which sources its library refuses is
up to the library.
-/
inductive Reads (codec : DecompressorCodec σ) (files : FileCodec) (p : Platform)
    (options : DecompressorOptions) :
    List Byte → Environment → Except Raised (List Byte) → Prop where
  | string {archive : RString p} {argument : Argument p} {length fuel : Nat} {gvl : Bool}
      {env : Environment} {run : StringRun p}
      (resolved : decompressStringArguments codec (.string archive) argument =
        .ok (archive, length, gvl, options))
      (executed : lzwsExtDecompressString codec fuel (.string archive) argument env = some run) :
      Reads codec files p options archive.bytes env (run.outcome.map RString.bytes)
  | stream {state : σ} {capacity fuel : Nat} {world : World σ p} {driven : Driven σ p}
      {outcome : Except Raised (List Byte)} {chunks : List (List Byte)} {schedule : Schedule}
      (opens : OpensDecompressor codec options state capacity world)
      (fits : chunks.flatten.length ≤ p.maxStringLength)
      (drives : driveDecompressor codec schedule fuel chunks world = some driven)
      (ended : outcome? driven = some outcome) :
      Reads codec files p options chunks.flatten world.environment outcome
  | file {φ : Type} {stdio : Stdio φ Byte} (lawful : stdio.Lawful) {archive text : List Byte}
      {file : φ} {argument : Argument p} {arguments : IoArguments φ DecompressorOptions}
      {env : Environment}
      (resolved : decompressIoArguments files (.stdio archive) (.stdio file) argument =
        .ok arguments)
      (described : arguments.options = options)
      (delivers : Delivers stdio
        (lzwsExtDecompressIo stdio files (.stdio archive) (.stdio file) argument env) file text) :
      Reads codec files p options archive env (.ok text)

/-- What is assumed of the file functions of lzws: they run the codec over the whole source. -/
structure RunsCodec (files : FileCodec) (compressor : CompressorCodec σ)
    (decompressor : DecompressorCodec τ) : Prop where
  compresses : ∀ source sourceLength destinationLength options,
    NoFailure (files.compressFile source sourceLength destinationLength options) →
    ∃ state, compressor.getInitialState options = .ok state ∧
      PairEnds compressor.compress compressor.finishNative .cut state source
        (outputOf (files.compressFile source sourceLength destinationLength options))
        (.finished [])
  decompresses : ∀ archive sourceLength destinationLength options,
    NoFailure (files.decompressFile archive sourceLength destinationLength options) →
    ∃ state, decompressor.getInitialState options = .ok state ∧
      EndsWith decompressor.decompress .cut state archive
        (outputOf (files.decompressFile archive sourceLength destinationLength options))
        (.finished [])

/-- What is assumed of lzws: its decoder is deterministic and inverts its encoder. -/
structure Inverts (compressor : CompressorCodec σ) (decompressor : DecompressorCodec τ)
    (units : Nat) : Prop where
  consumesAll : ConsumesAll compressor.compress
  starts : ∀ options, ∃ state, decompressor.getInitialState options = .ok state
  decompressUnits : UnitsAtMost decompressor.decompress units
  determined : ∀ {options : DecompressorOptions} {state : τ} (archive : List Byte),
    decompressor.getInitialState options = .ok state →
      OutputDeterminedOn decompressor.decompress .cut state archive
  decodes : ∀ {compressing : CompressorOptions} {decompressing : DecompressorOptions} {start : σ}
    {start' : τ} {source archive : List Byte}, SameFormat compressing decompressing →
    compressor.getInitialState compressing = .ok start →
    decompressor.getInitialState decompressing = .ok start' →
    PairEnds compressor.compress compressor.finishNative .cut start source archive
      (.finished []) →
    EndsWith decompressor.decompress .cut start' archive source (.finished [])

/-- What may keep a reader from its end: memory, a window that is too small, an interruption. -/
inductive Obstructed (env : Environment) : Raised → Prop where
  | memory : Obstructed env (lzwsExtRaiseError .allocateFailed)
  | window : Obstructed env (lzwsExtRaiseError .notEnoughDestinationBuffer)
  | surroundings {exception : Raised} (outside : exception.FromEnvironment)
      (busy : ¬ env.Quiet) : Obstructed env exception

/-! ## Files -/

variable {stdio : Stdio φ Byte}

/-- A call that returned and whose write-outs all succeeded delivered all of the output. -/
theorem wrapFileCall_delivers (lawful : stdio.Lawful) {gvl : Bool} {steps : List FileStep}
    {file : φ} {env : Environment} {delivered : List Byte}
    (delivers : Delivers stdio (wrapFileCall p stdio gvl steps file env) file delivered) :
    NoFailure steps ∧ delivered = outputOf steps := by
  obtain ⟨new, returned, after, left, kept, rfl⟩ := delivers
  unfold wrapFileCall at returned left
  generalize gvlWrap p gvl env = wrapped at returned left
  rcases wrapped with ⟨delivery, later⟩
  cases delivery with
  | before => cases returned
  | after => cases returned
  | nothing =>
      have done := @runFileSteps_ok φ stdio steps file
      have sound := @FileDelivery.runFileSteps_kept φ stdio lawful steps file
      generalize runFileSteps stdio steps file = call at returned left done sound
      rcases call with ⟨result, written, destination⟩
      cases result with
      | some error => cases returned
      | none =>
          cases left
          obtain ⟨noFailure, same⟩ := done rfl
          obtain ⟨silent, content⟩ := sound rfl
          have flushed := (lawful.fflush_succeeds_iff destination).mpr (kept.trans silent.symm)
          refine ⟨noFailure, ?_⟩
          rw [lawful.fflush_delivers flushed, content, new]
          exact same

/-- The source of accepted arguments is the file that was passed. -/
theorem ioArguments_source {Options : Type} {getOptions : Hash p → Except Raised Options}
    {source : List Byte} {destination : FileArgument φ} {argument : Argument p}
    {arguments : IoArguments φ Options}
    (resolved : ioArguments getOptions (.stdio source) destination argument = .ok arguments) :
    arguments.source = source := by
  obtain ⟨_, same, resolved⟩ := bind_eq_ok.mp resolved
  obtain ⟨_, _, resolved⟩ := bind_eq_ok.mp resolved
  obtain ⟨_, _, resolved⟩ := bind_eq_ok.mp resolved
  obtain ⟨_, _, resolved⟩ := bind_eq_ok.mp resolved
  obtain ⟨_, _, resolved⟩ := bind_eq_ok.mp resolved
  obtain ⟨_, _, resolved⟩ := bind_eq_ok.mp resolved
  obtain ⟨_, _, resolved⟩ := bind_eq_ok.mp resolved
  cases same
  cases resolved
  rfl

theorem ioFunction_delivers {Options : Type} {getOptions : Hash p → Except Raised Options}
    (lawful : stdio.Lawful) {steps : List Byte → Nat → Nat → Options → List FileStep}
    {source delivered : List Byte} {file : φ} {argument : Argument p}
    {arguments : IoArguments φ Options} {env : Environment}
    (resolved : ioArguments getOptions (.stdio source) (.stdio file) argument = .ok arguments)
    (delivers : Delivers stdio (ioFunction p stdio
      (ioArguments getOptions (.stdio source) (.stdio file) argument) steps (.stdio file) env)
        file delivered) :
    NoFailure (steps source arguments.sourceBufferLength arguments.destinationBufferLength
        arguments.options) ∧
      delivered = outputOf (steps source arguments.sourceBufferLength
        arguments.destinationBufferLength arguments.options) := by
  unfold ioFunction at delivers
  rw [resolved] at delivers
  have sameSource : arguments.source = source := ioArguments_source resolved
  dsimp only at delivers
  rw [FileDelivery.ioArguments_destination resolved, sameSource] at delivers
  exact wrapFileCall_delivers lawful delivers

/-! ## Writing -/

theorem OpensCompressor.opens {codec : CompressorCodec σ} {options : CompressorOptions}
    {state : σ} {capacity : Nat} {world : World σ p}
    (opened : OpensCompressor codec options state capacity world) :
    ∃ gvl, world.Opens (.fresh state capacity gvl) := by
  obtain ⟨started, argument, length, gvl, before, resolved, made, returned⟩ := opened
  exact StreamAgreement.opens_of_returned resolved started made returned

/-- Whoever wrote an archive, it is what complete sessions of the codec emit. -/
theorem Writes.pairEnds {codec : CompressorCodec σ} {decompressor : DecompressorCodec τ}
    {files : FileCodec} (law : ConsumesAll codec.compress)
    (runs : RunsCodec files codec decompressor) {options : CompressorOptions}
    {source archive : List Byte} (writes : Writes codec files p options source archive) :
    ∃ state, codec.getInitialState options = .ok state ∧
      PairEnds codec.compress codec.finishNative .cut state source archive (.finished []) := by
  cases writes with
  | @string source archive argument length fuel gvl env run resolved executed returned =>
      have result := lzwsExtCompressString_result law executed
      rw [returned] at result
      generalize ended : (Except.ok archive : Except Raised (RString p)) = left at result
      cases result with
      | refused => cases ended
      | noState => cases ended
      | noMemory => cases ended
      | @ended _ _ _ _ state exit resolved' started result =>
          rw [resolved] at resolved'
          cases resolved'
          cases result with
          | ok feeding finishing bytes =>
              cases ended
              refine ⟨state, started, ?_⟩
              rw [bytes]
              exact PairEnds.ofWhole .cut (.finished feeding finishing)
          | failed => cases ended
          | stalled => cases ended
          | noMemory => cases ended
          | raised => cases ended
  | @stream state capacity fuel world after archive chunks schedule opens fits driven =>
      obtain ⟨gvl, fresh⟩ := opens.opens
      refine ⟨state, opens.started, ?_⟩
      cases driveCompressor_result law fresh rfl fits driven with
      | done finished =>
          cases finished.rest_nil
          exact finished
  | file lawful resolved described delivers =>
      obtain ⟨noFailure, rfl⟩ := ioFunction_delivers lawful resolved delivers
      rw [described] at noFailure ⊢
      exact runs.compresses _ _ _ _ noFailure

/-! ## Reading -/

theorem OpensDecompressor.opens {codec : DecompressorCodec σ} {options : DecompressorOptions}
    {state : σ} {capacity : Nat} {world : World σ p}
    (opened : OpensDecompressor codec options state capacity world) :
    ∃ gvl, world.Opens (.fresh state capacity gvl) := by
  obtain ⟨started, argument, length, gvl, before, resolved, made, returned⟩ := opened
  exact StreamAgreement.opens_of_returned resolved started made returned

section Reading

variable {codec : DecompressorCodec τ} {options : DecompressorOptions} {state : τ}
  {source archive : List Byte}

/-- Complete sessions of a deterministic decoder agree with the one that gives the source. -/
theorem source_of_endsWith (determined : OutputDeterminedOn codec.decompress .cut state archive)
    (decodes : EndsWith codec.decompress .cut state archive source (.finished []))
    {out : List Byte} {verdict : Verdict Byte DecompressorError}
    (ends : EndsWith codec.decompress .cut state archive out verdict) :
    source = out ∧ verdict.code = none := by
  obtain ⟨same, code⟩ := determined.agree ⟨_, decodes, rfl⟩ ⟨_, ends, rfl⟩
  exact ⟨same, code.symm⟩

/-- How a reading ends: as the codec decides, or for want of a resource. -/
inductive Ending (codec : DecompressorCodec τ) (state : τ) (archive : List Byte)
    (env : Environment) : Except Raised (List Byte) → Prop where
  | read {text rest : List Byte}
      (ends : EndsWith codec.decompress .cut state archive text (.finished rest)) :
      Ending codec state archive env (.ok text)
  | failed {outcome : Except Raised (List Byte)} {out : List Byte} {code : DecompressorError}
      (ends : EndsWith codec.decompress .cut state archive out (.failed code)) :
      Ending codec state archive env outcome
  | obstructed {exception : Raised} (lacks : Obstructed env exception) :
      Ending codec state archive env (.error exception)

theorem ending_of_string {value : RString q} {argument : Argument q} {length fuel : Nat}
    {gvl : Bool} {env : Environment} {run : StringRun q}
    (started : codec.getInitialState options = .ok state)
    (resolved : decompressStringArguments codec (.string value) argument =
      .ok (value, length, gvl, options))
    (executed : lzwsExtDecompressString codec fuel (.string value) argument env = some run) :
    Ending codec state value.bytes env (run.outcome.map RString.bytes) := by
  have result := lzwsExtDecompressString_result executed
  generalize run.outcome = outcome at result ⊢
  cases result with
  | refused refused =>
      change decompressStringArguments codec (.string value) argument = _ at refused
      rw [resolved] at refused
      cases refused
  | noState resolved' failed =>
      change decompressStringArguments codec (.string value) argument = _ at resolved'
      rw [resolved] at resolved'
      cases resolved'
      rw [started] at failed
      cases failed
  | noMemory => exact .obstructed .memory
  | ended resolved' started' result calm =>
      change decompressStringArguments codec (.string value) argument = _ at resolved'
      rw [resolved] at resolved'
      cases resolved'
      rw [started] at started'
      cases started'
      cases result with
      | ok ends => exact .read ends.toCut.endsWith
      | failed ends => exact .failed ends.toCut.endsWith
      | stalled => exact .obstructed .window
      | noMemory => exact .obstructed .memory
      | raised outside => exact .obstructed (.surroundings outside fun quiet => calm quiet _ rfl)

theorem ending_of_stream {capacity fuel : Nat} {world : World τ q} {driven : Driven τ q}
    {outcome : Except Raised (List Byte)} {chunks : List (List Byte)} {schedule : Schedule}
    (opens : OpensDecompressor codec options state capacity world)
    (fits : chunks.flatten.length ≤ q.maxStringLength)
    (drives : driveDecompressor codec schedule fuel chunks world = some driven)
    (ended : outcome? driven = some outcome) :
    Ending codec state chunks.flatten world.environment outcome := by
  obtain ⟨gvl, fresh⟩ := opens.opens
  cases driveDecompressor_result fresh rfl fits drives with
  | done finished =>
      cases ended
      exact .read finished
  | failed failed => exact .failed failed
  | disturbed outside busy =>
      cases ended
      exact .obstructed (.surroundings outside busy)

/-- Whoever reads, it is the codec that decides what comes back, unless a resource is missing. -/
theorem Reads.ends {compressor : CompressorCodec σ} {files : FileCodec}
    (runs : RunsCodec files compressor codec) {env : Environment}
    {outcome : Except Raised (List Byte)}
    (started : codec.getInitialState options = .ok state)
    (reads : Reads codec files q options archive env outcome) :
    Ending codec state archive env outcome := by
  cases reads with
  | string resolved executed => exact ending_of_string started resolved executed
  | stream opens fits drives ended =>
      have same := opens.started
      rw [started] at same
      cases same
      exact ending_of_stream opens fits drives ended
  | file lawful resolved described delivers =>
      obtain ⟨noFailure, rfl⟩ := ioFunction_delivers lawful resolved delivers
      rw [described] at noFailure ⊢
      obtain ⟨state', started', ends⟩ := runs.decompresses _ _ _ _ noFailure
      rw [started] at started'
      cases started'
      exact .read ends

/-- Of a whole archive it is the source that comes back. -/
theorem Ending.outcome {env : Environment} {outcome : Except Raised (List Byte)}
    (ending : Ending codec state archive env outcome)
    (determined : OutputDeterminedOn codec.decompress .cut state archive)
    (decodes : EndsWith codec.decompress .cut state archive source (.finished [])) :
    outcome = .ok source ∨ ∃ exception, outcome = .error exception ∧ Obstructed env exception := by
  cases ending with
  | read ends =>
      obtain ⟨rfl, _⟩ := source_of_endsWith determined decodes ends
      exact .inl rfl
  | failed failed => cases (source_of_endsWith determined decodes failed).2
  | obstructed lacks => exact .inr ⟨_, rfl, lacks⟩

/-- Of a part of an archive it is a part of the source that comes back. -/
theorem Ending.part {env : Environment} {outcome : Except Raised (List Byte)}
    {part more : List Byte} (ending : Ending codec state part env outcome)
    (determined : OutputDeterminedOn codec.decompress .cut state (part ++ more))
    (decodes : EndsWith codec.decompress .cut state (part ++ more) source (.finished [])) :
    (∃ text, outcome = .ok text ∧ text <+: source) ∨
      ∃ exception, outcome = .error exception ∧ Obstructed env exception := by
  cases ending with
  | read ends => exact .inl ⟨_, rfl, determined.prefix_of_part ends decodes⟩
  | failed failed => cases determined.code_of_part failed decodes
  | obstructed lacks => exact .inr ⟨_, rfl, lacks⟩

/-- In quiet surroundings a reader with a roomy buffer comes to the end of the source. -/
theorem drives_to_source {units capacity : Nat} {world : World τ q}
    (law : UnitsAtMost codec.decompress units)
    (determined : OutputDeterminedOn codec.decompress .cut state archive)
    (decodes : EndsWith codec.decompress .cut state archive source (.finished []))
    (opened : OpensDecompressor codec options state capacity world) (enough : units ≤ capacity)
    (quiet : world.environment.Quiet) (schedule : Schedule) {chunks : List (List Byte)}
    (cut : chunks.flatten = archive) (fits : archive.length ≤ q.maxStringLength) :
    ∃ fuel after,
      driveDecompressor codec schedule fuel chunks world = some (.done source after) := by
  subst cut
  obtain ⟨gvl, fresh⟩ := opened.opens
  have bounded : BoundedBy (Emits codec.decompress .cut state chunks.flatten) source.length :=
    StreamAgreement.boundedBy_of_determined determined ⟨_, decodes, rfl⟩
  obtain ⟨fuel, driven, drives⟩ : ∃ fuel driven,
      driveDecompressor codec schedule fuel chunks world = some driven :=
    driveDecompressor_ends law enough bounded fresh rfl fits
  cases driveDecompressor_result fresh rfl fits drives with
  | done finished =>
      obtain ⟨rfl, _⟩ := source_of_endsWith determined decodes finished
      exact ⟨fuel, _, drives⟩
  | failed failed => cases (source_of_endsWith determined decodes failed).2
  | disturbed _ busy => exact absurd quiet busy

end Reading

/--
**Archives are interchangeable.**  Take an archive that was written as a string, to a file
or through a driven stream object.  The string function and a driven stream object that read
it under options of the same format give the source, or lack a resource; a file function
that returns with its write-outs done has delivered the source.  In quiet surroundings, with
a buffer that holds the largest unit and memory for the source, the string function and a
driven stream object do come to the source.
-/
theorem archives_interchangeable {compressor : CompressorCodec σ}
    {decompressor : DecompressorCodec τ} {units : Nat}
    (law : Inverts compressor decompressor units) {files : FileCodec}
    (runs : RunsCodec files compressor decompressor) {compressing : CompressorOptions}
    {decompressing : DecompressorOptions} (same : SameFormat compressing decompressing)
    {source archive : List Byte} (written : Writes compressor files p compressing source archive)
    (q : Platform) :
    (∀ env outcome, Reads decompressor files q decompressing archive env outcome →
      outcome = .ok source ∨ ∃ exception, outcome = .error exception ∧ Obstructed env exception) ∧
    (∀ (value : RString q) argument length gvl (env : Environment), value.bytes = archive →
      decompressStringArguments decompressor (.string value) argument =
        .ok (value, length, gvl, decompressing) →
      env.Quiet → units ≤ windowLength length decompressor.defaultDestinationBufferLength →
      source.length + windowLength length decompressor.defaultDestinationBufferLength ≤
        q.maxStringLength →
      EndsAs (fun fuel => lzwsExtDecompressString decompressor fuel (.string value) argument env)
        (.ok source)) ∧
    ∀ (world : World τ q) state capacity schedule chunks,
      OpensDecompressor decompressor decompressing state capacity world →
      chunks.flatten = archive → archive.length ≤ q.maxStringLength → units ≤ capacity →
      world.environment.Quiet →
      ∃ fuel after, driveDecompressor decompressor schedule fuel chunks world =
        some (.done source after) := by
  obtain ⟨start, initial, pairEnds⟩ := written.pairEnds law.consumesAll runs
  obtain ⟨start', initial'⟩ := law.starts decompressing
  have determined := law.determined archive initial'
  have decodes := law.decodes same initial initial' pairEnds
  refine ⟨?_, ?_, ?_⟩
  · exact fun env outcome reads => (reads.ends runs initial').outcome determined decodes
  · rintro value argument length gvl env rfl resolved quiet enough room
    have decompresses : DecompressesTo decompressor .cut start' value.bytes units source
        (.finished []) := ⟨law.decompressUnits, determined, decodes⟩
    exact decompresses.endsAs quiet resolved initial' enough room
  · intro world state capacity schedule chunks opened cut fits enough quiet
    have started := opened.started
    rw [initial'] at started
    cases started
    exact drives_to_source law.decompressUnits determined decodes opened enough quiet schedule cut
      fits

/--
**A part of an archive reads as a part of its source.**  However an archive was written, the
string function and a driven stream object that read only its first bytes give a beginning of
the source or lack a resource: to them no cut makes an archive look corrupted or yields a byte
that is not in the source.  A file function may refuse the part, but where it returns with its
write-outs done, it has delivered a beginning of the source.
-/
theorem partial_archives_readable {compressor : CompressorCodec σ}
    {decompressor : DecompressorCodec τ} {units : Nat}
    (law : Inverts compressor decompressor units) {files : FileCodec}
    (runs : RunsCodec files compressor decompressor) {compressing : CompressorOptions}
    {decompressing : DecompressorOptions} (same : SameFormat compressing decompressing)
    {source archive part : List Byte}
    (written : Writes compressor files p compressing source archive) (front : part <+: archive)
    (q : Platform) (env : Environment) (outcome : Except Raised (List Byte))
    (reads : Reads decompressor files q decompressing part env outcome) :
    (∃ text, outcome = .ok text ∧ text <+: source) ∨
      ∃ exception, outcome = .error exception ∧ Obstructed env exception := by
  obtain ⟨more, rfl⟩ := front
  obtain ⟨start, initial, pairEnds⟩ := written.pairEnds law.consumesAll runs
  obtain ⟨start', initial'⟩ := law.starts decompressing
  exact (reads.ends runs initial').part (law.determined _ initial')
    (law.decodes same initial initial' pairEnds)

/-! ## The stored codec -/

theorem stored_inverts : Inverts StoredCodec.compressor StoredCodec.decompressor 1 := by
  constructor
  · exact StoredCodec.compressor_consumesAll
  · exact fun options => ⟨StoredCodec.decompressingStart options, rfl⟩
  · exact StoredCodec.decompressor_unitsAtMost
  · intro options state archive initial
    cases initial
    exact (StoredCodec.decompressor_determined .cut options archive).output
  · intro compressing decompressing start start' source archive same initial initial' pairEnds
    cases initial'
    rw [StoredCodec.start_of_initial initial] at pairEnds
    rw [(StoredCodec.archive_of_pairEnds pairEnds).1]
    have leads := StoredCodec.decompressing_archive same.withoutMagicHeader source
    exact leads.ends.toCut.endsWith

/-- What stands behind the magic header, if the archive starts as it should. -/
def behindMagicHeader (options : DecompressorOptions) (archive : List Byte) :
    Option (List Byte) :=
  if options.withoutMagicHeader then some archive
  else if archive.take 2 = StoredCodec.magicHeader then some (archive.drop 2)
  else none

/-- File functions that run the stored codec. -/
def storedArchives : FileCodec where
  defaultCompressorOptions := StoredCodec.compressor.defaultOptions
  defaultDecompressorOptions := StoredCodec.decompressor.defaultOptions
  compressFile source _ _ options :=
    match StoredCodec.compressor.getInitialState options with
    | .error _ => [.fail .validateFailed]
    | .ok _ => [.write (StoredCodec.archive options source)]
  decompressFile archive _ _ options :=
    match behindMagicHeader options archive with
    | some (_ :: text) => [.write text]
    | _ => [.fail .decompressorCorruptedSource]

theorem archive_eq_of_behindMagicHeader {options : DecompressorOptions} {archive rest : List Byte}
    (found : behindMagicHeader options archive = some rest) :
    archive = (if options.withoutMagicHeader then [] else StoredCodec.magicHeader) ++ rest := by
  unfold behindMagicHeader at found
  split at found
  · next without =>
      cases found
      rw [if_pos without]
      rfl
  · next magic =>
      rw [if_neg magic]
      split at found
      · next starts =>
          cases found
          rw [← starts, List.take_append_drop]
      · cases found

theorem stored_runsCodec :
    RunsCodec storedArchives StoredCodec.compressor StoredCodec.decompressor := by
  constructor
  · intro source _ _ options noFailure
    unfold storedArchives at noFailure ⊢
    dsimp only at noFailure ⊢
    cases initial : StoredCodec.compressor.getInitialState options with
    | error code =>
        rw [initial] at noFailure
        exact absurd List.mem_cons_self (noFailure _)
    | ok state =>
        refine ⟨state, rfl, ?_⟩
        rw [StoredCodec.start_of_initial initial]
        have ends := (StoredCodec.pairEnds_archive options source).toCut
        rw [← List.append_nil (StoredCodec.archive options source)] at ends
        exact ends
  · intro archive _ _ options noFailure
    refine ⟨_, rfl, ?_⟩
    unfold storedArchives at noFailure ⊢
    dsimp only at noFailure ⊢
    split at noFailure
    · next option text found =>
        rw [archive_eq_of_behindMagicHeader found]
        have whole : outputOf [.write text] = text := List.append_nil text
        rw [whole]
        exact (StoredCodec.decompressing_text options option text).ends.toCut.endsWith
    · exact absurd List.mem_cons_self (noFailure _)

theorem stored_sameFormat : SameFormat StoredCodec.compressor.defaultOptions
    StoredCodec.decompressor.defaultOptions := ⟨rfl, rfl, rfl⟩

/-- A new file on a disk with room. -/
def newFile : BlockFile Byte where
  capacity := 8192
  buffered := []
  delivered := []
  writeOuts := []
  failures := 0

/-- Written as a string through windows of two bytes, read through a stream and from a file. -/
theorem archives_interchangeable_string_to_stream_and_file :
    ∃ run world, lzwsExtCompressString StoredCodec.compressor 8
        (.string (.ofBytes (p := .linux64) [7, 8])) (.hash (StoredCodec.options .linux64 2 true))
        .calm = some run ∧
      lzwsExtInitializeDecompressor (p := .linux64) StoredCodec.decompressor
        (.hash (StoredCodec.options .linux64 1 false)) (World.start _ _ .calm).allocate =
          .returned .nil world ∧
      ∃ archive, run.outcome = .ok archive ∧
        (∃ fuel after, driveDecompressor StoredCodec.decompressor ⟨fun _ => 1, fun _ => 0, 0⟩ fuel
          (archive.bytes.map fun byte => [byte]) world = some (.done [7, 8] after)) ∧
        ∃ text, Delivers (blockStdio Byte) (lzwsExtDecompressIo (blockStdio Byte) storedArchives
            (.stdio archive.bytes) (.stdio newFile) (.hash (FileDelivery.lockedOptions .linux64))
            .calm) newFile text ∧
          text = [7, 8] := by
  obtain ⟨world, initialized, quiet⟩ : ∃ world, lzwsExtInitializeDecompressor (p := .linux64)
      StoredCodec.decompressor (.hash (StoredCodec.options .linux64 1 false))
        (World.start _ _ .calm).allocate = .returned .nil world ∧ world.environment.Quiet :=
    ⟨_, rfl, Environment.calm_quiet⟩
  have found : ((lzwsExtCompressString StoredCodec.compressor 8
      (.string (.ofBytes (p := .linux64) [7, 8])) (.hash (StoredCodec.options .linux64 2 true))
        .calm).bind fun run => run.outcome.toOption.map fun archive => archive.bytes) =
      some [0x1f, 0x9d, 0x90, 7, 8] := by
    decide +kernel
  obtain ⟨run, executed, read⟩ := Option.bind_eq_some_iff.mp found
  obtain ⟨archive, returned, bytes⟩ := Option.map_eq_some_iff.mp read
  have compressed : run.outcome = .ok archive := ok_of_toOption returned
  have written : Writes StoredCodec.compressor storedArchives .linux64
      StoredCodec.compressor.defaultOptions
      (RString.ofBytes (p := .linux64) [7, 8]).bytes archive.bytes :=
    .string rfl executed compressed
  obtain ⟨reads, _, drives⟩ := archives_interchangeable stored_inverts stored_runsCodec
    stored_sameFormat written .linux64
  refine ⟨run, world, executed, initialized, archive, compressed, ?_, ?_⟩
  · have opens : OpensDecompressor StoredCodec.decompressor
        StoredCodec.decompressor.defaultOptions .header 1 world :=
      ⟨rfl, _, _, _, _, rfl, rfl, initialized⟩
    have whole : (archive.bytes.map fun byte => [byte]).flatten = archive.bytes := by
      rw [bytes]
      rfl
    exact drives world _ 1 _ _ opens whole archive.length_le (Nat.le_refl 1) quiet
  · have delivers : ∃ text, Delivers (blockStdio Byte) (lzwsExtDecompressIo (p := .linux64)
        (blockStdio Byte) storedArchives (.stdio archive.bytes) (.stdio newFile)
        (.hash (FileDelivery.lockedOptions .linux64)) .calm) newFile text := by
      rw [bytes]
      exact ⟨_, rfl, rfl, _, rfl, rfl, rfl⟩
    obtain ⟨text, delivers⟩ := delivers
    refine ⟨text, delivers, ?_⟩
    rcases reads _ _ (.file (blockStdio_lawful Byte) rfl rfl delivers) with same | failed
    · exact Except.ok.inj same
    · obtain ⟨_, impossible, _⟩ := failed
      cases impossible

/-- Written to a file; its first five bytes are read as a string and from a file. -/
theorem partial_archives_readable_file_to_string_and_file :
    Delivers (blockStdio Byte) (lzwsExtCompressIo (blockStdio Byte) storedArchives
        (.stdio [7, 8, 9]) (.stdio newFile) (.hash (FileDelivery.lockedOptions .linux64)) .calm)
        newFile [0x1f, 0x9d, 0x90, 7, 8, 9] ∧
      (∃ run, lzwsExtDecompressString StoredCodec.decompressor 8
          (.string (.ofBytes (p := .linux64) [0x1f, 0x9d, 0x90, 7, 8]))
          (.hash (StoredCodec.options .linux64 2 true)) .calm = some run ∧
        ((∃ text, run.outcome.map RString.bytes = .ok text ∧ text <+: [7, 8, 9]) ∨
          ∃ exception, run.outcome.map RString.bytes = .error exception ∧
            Obstructed .calm exception)) ∧
      ∃ text, Delivers (blockStdio Byte) (lzwsExtDecompressIo (p := .linux64) (blockStdio Byte)
          storedArchives (.stdio [0x1f, 0x9d, 0x90, 7, 8]) (.stdio newFile)
          (.hash (FileDelivery.lockedOptions .linux64)) .calm) newFile text ∧
        text <+: [7, 8, 9] := by
  have delivers : Delivers (blockStdio Byte) (lzwsExtCompressIo (blockStdio Byte) storedArchives
      (.stdio [7, 8, 9]) (.stdio newFile) (.hash (FileDelivery.lockedOptions .linux64)) .calm)
        newFile [0x1f, 0x9d, 0x90, 7, 8, 9] := ⟨rfl, rfl, _, rfl, rfl, rfl⟩
  have found : (lzwsExtDecompressString StoredCodec.decompressor 8
      (.string (.ofBytes (p := .linux64) [0x1f, 0x9d, 0x90, 7, 8]))
      (.hash (StoredCodec.options .linux64 2 true)) .calm).isSome = true := by
    decide +kernel
  obtain ⟨run, executed⟩ := Option.isSome_iff_exists.mp found
  have written : Writes StoredCodec.compressor storedArchives .linux64
      StoredCodec.compressor.defaultOptions [7, 8, 9] [0x1f, 0x9d, 0x90, 7, 8, 9] :=
    .file (blockStdio_lawful Byte) rfl rfl delivers
  have front : ([0x1f, 0x9d, 0x90, 7, 8] : List Byte) <+: [0x1f, 0x9d, 0x90, 7, 8, 9] :=
    ⟨[9], rfl⟩
  have reads := partial_archives_readable stored_inverts stored_runsCodec stored_sameFormat
    written front .linux64 .calm
  refine ⟨delivers, ⟨run, executed, reads _ (.string rfl executed)⟩, ?_⟩
  obtain ⟨text, partly⟩ : ∃ text, Delivers (blockStdio Byte) (lzwsExtDecompressIo (p := .linux64)
      (blockStdio Byte) storedArchives (.stdio [0x1f, 0x9d, 0x90, 7, 8]) (.stdio newFile)
      (.hash (FileDelivery.lockedOptions .linux64)) .calm) newFile text :=
    ⟨_, rfl, rfl, _, rfl, rfl, rfl⟩
  refine ⟨text, partly, ?_⟩
  rcases reads _ (.file (blockStdio_lawful Byte) rfl rfl partly) with readable | failed
  · obtain ⟨_, same, front⟩ := readable
    cases same
    exact front
  · obtain ⟨_, impossible, _⟩ := failed
    cases impossible

end RubyLzws.Results.Interchange
