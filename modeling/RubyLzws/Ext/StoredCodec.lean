import RubyLzws.Ext.Codec
import RubyLzws.Library.UnitMachine

/-!
# A codec that meets the laws assumed of lzws

The archive is the magic header and the option byte of lzws, followed by the
source as it is.  Both directions are unit machines: the magic header is one unit
of two bytes, everything else goes byte by byte.  The codec shows that what the
results assume of lzws can be met, and on an empty source it is what lzws does.
-/

namespace RubyLzws.Ext.StoredCodec

open Library.Transducer Library.UnitMachine

/-- The two bytes every archive starts with, unless they are left out. -/
def magicHeader : List Byte := [0x1f, 0x9d]

/-- The byte that tells the width of the longest code and the block mode. -/
def optionByte (options : CompressorOptions) : Byte :=
  UInt8.ofNat (options.maxCodeBitLength + if options.blockMode then 0x80 else 0)

/-- Options with a buffer length, the lock held or not, and the defaults of the library. -/
def options (p : Platform) (destinationBufferLength : Int) (gvl : Bool) : Hash p
  | .destinationBufferLength => some (.integer destinationBufferLength)
  | .gvl => some (if gvl then .true else .false)
  | _ => none

/-! ## Compressor -/

inductive Compressing where
  | header (option : Byte)
  | option (option : Byte)
  | body
  | stored (byte : Byte)
  deriving DecidableEq, Repr

def compressing : Machine Compressing Byte Byte CompressorError where
  move
    | .header option => .emit magicHeader (.option option)
    | .option option => .emit [option] .body
    | .body => .read 1 fun taken => .stored (taken.headD 0)
    | .stored byte => .emit [byte] .body
  emit_ne_nil := by
    intro state unit next moved
    cases state <;> cases moved <;> simp [magicHeader]
  read_pos := by
    intro state size next moved
    cases state <;> cases moved
    exact Nat.one_pos

/-- Where compressing starts. -/
def compressingStart (options : CompressorOptions) : Compressing :=
  if options.withoutMagicHeader then .option (optionByte options) else .header (optionByte options)

def compressor : CompressorCodec Compressing where
  defaultOptions := ⟨false, 16, true, false, false, false⟩
  getInitialState options :=
    if 9 ≤ options.maxCodeBitLength ∧ options.maxCodeBitLength ≤ 16 then
      .ok (compressingStart options)
    else .error .invalidMaxCodeBitLength
  compress := native compressing
  finish := finishCall compressing id
  defaultDestinationBufferLength := 512
  defaultDestinationBufferLength_pos := by decide
  createDestinationBuffer length _ := some (if length = 0 then 512 else length)

theorem start_of_initial {options : CompressorOptions} {state : Compressing}
    (initial : compressor.getInitialState options = .ok state) :
    state = compressingStart options := by
  unfold compressor at initial
  dsimp only at initial
  split at initial
  · cases initial
    rfl
  · cases initial

theorem compressing_units {state next : Compressing} {unit : List Byte}
    (moved : compressing.move state = .emit unit next) : unit.length ≤ 2 := by
  cases state <;> cases moved <;> simp [magicHeader]

theorem compressor_consumesAll : ConsumesAll compressor.compress := by
  apply native_consumesAll compressing
  intro state size next moved
  cases state <;> cases moved
  rfl

theorem compressor_unitsAtMost : UnitsAtMost compressor.compress 2 :=
  native_unitsAtMost compressing compressing_units

theorem compressor_finish_unitsAtMost : UnitsAtMost compressor.finishNative 2 :=
  finishing_unitsAtMost compressing_units

theorem compressor_determined (mode : Mode) (start : Compressing) (source : List Byte) :
    PairDeterminedOn compressor.compress compressor.finishNative mode start source :=
  pairDeterminedOn compressing id mode start source

/-! ## Decompressor -/

inductive Decompressing where
  | header
  | option
  | body
  | stored (byte : Byte)
  | refused
  deriving DecidableEq, Repr

def decompressing : Machine Decompressing Byte Byte DecompressorError where
  move
    | .header => .read 2 fun taken => if taken = magicHeader then .option else .refused
    | .option => .read 1 fun _ => .body
    | .body => .read 1 fun taken => .stored (taken.headD 0)
    | .stored byte => .emit [byte] .body
    | .refused => .fail .invalidMagicHeader
  emit_ne_nil := by
    intro state unit next moved
    cases state <;> cases moved
    simp
  read_pos := by
    intro state size next moved
    cases state <;> cases moved <;> decide

/-- Where decompressing starts. -/
def decompressingStart (options : DecompressorOptions) : Decompressing :=
  if options.withoutMagicHeader then .option else .header

def decompressor : DecompressorCodec Decompressing where
  defaultOptions := ⟨false, false, false, false⟩
  getInitialState options := .ok (decompressingStart options)
  decompress := native decompressing
  defaultDestinationBufferLength := 512
  defaultDestinationBufferLength_pos := by decide
  createDestinationBuffer length _ := some (if length = 0 then 512 else length)

/-- Decompressing starts by waiting for source. -/
theorem decompressingStart_waiting (options : DecompressorOptions) :
    Waiting decompressing (decompressingStart options) [] := by
  unfold decompressingStart
  split
  · exact ⟨1, _, rfl, Nat.one_pos⟩
  · exact ⟨2, _, rfl, Nat.two_pos⟩

theorem decompressing_units {state next : Decompressing} {unit : List Byte}
    (moved : decompressing.move state = .emit unit next) : unit.length ≤ 1 := by
  cases state <;> cases moved
  simp

theorem decompressor_unitsAtMost : UnitsAtMost decompressor.decompress 1 :=
  native_unitsAtMost decompressing decompressing_units

theorem decompressor_determined (mode : Mode) (options : DecompressorOptions)
    (source : List Byte) :
    DeterminedOn decompressor.decompress mode (decompressingStart options) source :=
  determinedOn decompressing mode _ source fun _ _ => decompressingStart_waiting options

/-! ## Round trip -/

/-- The body of the archive is the source. -/
theorem compressing_body (source : List Byte) :
    Path compressing .body source source .body [] := by
  induction source with
  | nil => exact .stay _ _
  | cons byte rest ih =>
      have stored : Path compressing (.stored byte) rest ([byte] ++ rest) .body [] := .emit rfl ih
      exact Path.read rfl List.length_singleton stored

theorem decompressing_body (source : List Byte) :
    Path decompressing .body source source .body [] := by
  induction source with
  | nil => exact .stay _ _
  | cons byte rest ih =>
      have stored : Path decompressing (.stored byte) rest ([byte] ++ rest) .body [] :=
        .emit rfl ih
      exact Path.read rfl List.length_singleton stored

/-- The whole archive. -/
def archive (options : CompressorOptions) (source : List Byte) : List Byte :=
  (if options.withoutMagicHeader then [] else magicHeader) ++ [optionByte options] ++ source

theorem compressing_archive (options : CompressorOptions) (source : List Byte) :
    LeadsTo compressing (compressingStart options) source (archive options source)
      (.finished .body []) := by
  refine ⟨?_, 1, _, rfl, Nat.one_pos⟩
  have body : Path compressing (.option (optionByte options)) source
      ([optionByte options] ++ source) .body [] := .emit rfl (compressing_body source)
  unfold compressingStart archive
  split
  · exact body
  · rw [List.append_assoc]
    exact .emit rfl body

/-- Whatever its option byte, an archive is decompressed to its body. -/
theorem decompressing_text (options : DecompressorOptions) (option : Byte) (text : List Byte) :
    LeadsTo decompressing (decompressingStart options)
      ((if options.withoutMagicHeader then [] else magicHeader) ++ ([option] ++ text)) text
      (.finished .body []) := by
  refine ⟨?_, 1, _, rfl, Nat.one_pos⟩
  have body : Path decompressing .option ([option] ++ text) text .body [] :=
    .read rfl rfl (decompressing_body text)
  unfold decompressingStart
  split
  · exact body
  · have two : magicHeader.length = 2 := rfl
    exact .read rfl two body

theorem decompressing_archive {options : CompressorOptions} {other : DecompressorOptions}
    (same : other.withoutMagicHeader = options.withoutMagicHeader) (source : List Byte) :
    LeadsTo decompressing (decompressingStart other) (archive options source) source
      (.finished .body []) := by
  rw [archive, ← same, List.append_assoc]
  exact decompressing_text other (optionByte options) source

/-- One call to compress and one to finish write the archive. -/
theorem pairEnds_archive (options : CompressorOptions) (source : List Byte) :
    PairEnds compressor.compress compressor.finishNative .whole (compressingStart options) source
      (archive options source) (.finished []) := by
  have flushed : LeadsTo (finishing compressing id) .body [] [] (.finished .body []) :=
    ⟨.stay _ _, 1, _, rfl, Nat.one_pos⟩
  have ends : PairEnds compressor.compress compressor.finishNative .whole _ source
      (archive options source ++ []) (.finished []) :=
    .finished (compressing_archive options source).ends flushed.finish_ends
  rw [List.append_nil] at ends
  exact ends

/-- What compressing emits is the archive, however the source was cut. -/
theorem archive_of_pairEnds {mode : Mode} {options : CompressorOptions} {source out : List Byte}
    {verdict : Verdict Byte CompressorError}
    (ends : PairEnds compressor.compress compressor.finishNative mode (compressingStart options)
      source out verdict) :
    out = archive options source ∧ verdict = .finished [] :=
  (compressor_determined mode _ source).agree ends ((pairEnds_archive options source).ofWhole mode)

theorem archive_of_ends {options : CompressorOptions} {source out : List Byte}
    {verdict : Verdict Byte CompressorError}
    (ends : PairEnds compressor.compress compressor.finishNative .whole
      (compressingStart options) source out verdict) :
    out = archive options source ∧ verdict = .finished [] :=
  archive_of_pairEnds ends

/-- Decompressing an archive emits the source and uses up the archive. -/
theorem source_of_ends {mode : Mode} {options : CompressorOptions} {other : DecompressorOptions}
    (same : other.withoutMagicHeader = options.withoutMagicHeader) {source out : List Byte}
    {outcome : Outcome Decompressing Byte DecompressorError}
    (ends : Ends decompressor.decompress mode (decompressingStart other)
      (archive options source) out outcome) :
    out = source ∧ outcome.verdict = .finished [] := by
  obtain ⟨rfl, rfl⟩ := (LeadsTo.of_ends ends fun _ _ => decompressingStart_waiting other).unique
    (decompressing_archive same source)
  exact ⟨rfl, rfl⟩

end RubyLzws.Ext.StoredCodec
