import RubyLzws.Ext.Environment
import RubyLzws.Ext.Option
import RubyLzws.Library.StdioFile

/-!
# The file functions

`io.c`: two open files and the options are handed to lzws, which reads, runs its
codec and writes on its own; the extension turns its result into an exception or
flushes the destination.
-/

namespace RubyLzws.Ext

open Library.StdioFile

/-- The results `LZWS_FILE_*` other than 0. -/
inductive FileError where
  | allocateFailed
  | validateFailed
  | notEnoughSourceBuffer
  | notEnoughDestinationBuffer
  | decompressorCorruptedSource
  | readFailed
  | writeFailed
  | other (code : Nat)
  deriving DecidableEq, Repr

/-- `get_file_error` -/
def getFileError : FileError → ExtError
  | .allocateFailed => .allocateFailed
  | .validateFailed => .validateFailed
  | .notEnoughSourceBuffer => .notEnoughSourceBuffer
  | .notEnoughDestinationBuffer => .notEnoughDestinationBuffer
  | .decompressorCorruptedSource => .decompressorCorruptedSource
  | .readFailed => .readIo
  | .writeFailed => .writeIo
  | .other _ => .unexpected

/-! ## The library -/

/-- A step of `lzws_compress_file` or `lzws_decompress_file` that concerns its caller. -/
inductive FileStep where
  /-- An `fwrite` to the destination. -/
  | write (bytes : List Byte)
  /-- A read, an allocation or a step of the codec that fails. -/
  | fail (error : FileError)
  deriving DecidableEq, Repr

/--
The file functions of lzws: which steps they take for a source and two buffer
lengths, as long as every `fwrite` succeeds.
-/
structure FileCodec where
  /-- `LZWS_COMPRESSOR_DEFAULT_OPTIONS` -/
  defaultCompressorOptions : CompressorOptions
  /-- `LZWS_DECOMPRESSOR_DEFAULT_OPTIONS` -/
  defaultDecompressorOptions : DecompressorOptions
  /-- `lzws_compress_file` -/
  compressFile : (source : List Byte) → (sourceBufferLength destinationBufferLength : Nat) →
    CompressorOptions → List FileStep
  /-- `lzws_decompress_file` -/
  decompressFile : (source : List Byte) → (sourceBufferLength destinationBufferLength : Nat) →
    DecompressorOptions → List FileStep

variable {φ : Type}

/-- What a call of a file function of lzws comes to. -/
structure FileCall (φ : Type) where
  /-- `none` is 0. -/
  result : Option FileError
  /-- The bytes handed to `fwrite`. -/
  written : List Byte
  destination : φ

/-- The steps one after the other, up to the first that fails. -/
def runFileSteps (stdio : Stdio φ Byte) : List FileStep → φ → FileCall φ
  | [], destination => ⟨none, [], destination⟩
  | .fail error :: _, destination => ⟨some error, [], destination⟩
  | .write bytes :: rest, destination =>
      match stdio.fwrite destination bytes with
      | (true, after) =>
          let call := runFileSteps stdio rest after
          { call with written := bytes ++ call.written }
      | (false, after) => ⟨some .writeFailed, bytes, after⟩

/-- What the steps write if none of them fails. -/
def outputOf (steps : List FileStep) : List Byte :=
  steps.flatMap fun step =>
    match step with
    | .write bytes => bytes
    | .fail _ => []

/-! ## Arguments -/

/-- What a caller passes as source or destination. -/
inductive FileArgument (α : Type) where
  /-- Not a `T_FILE`. -/
  | notFile
  /-- `GetOpenFile` finds no open file. -/
  | closed
  /-- `rb_io_stdio_file` returns `NULL`. -/
  | inaccessible
  | stdio (file : α)

/-- `GET_FILE` -/
def getFile {α : Type} : FileArgument α → Except Raised α
  | .notFile => .error .typeError
  | .closed => .error .ioError
  | .inaccessible => .error (lzwsExtRaiseError .accessIo)
  | .stdio file => .ok file

/-- The variables of the exported functions before the library is called. -/
structure IoArguments (φ Options : Type) where
  source : List Byte
  destination : φ
  sourceBufferLength : Nat
  destinationBufferLength : Nat
  gvl : Bool
  options : Options

variable {p : Platform}

/-- The checks common to both functions. -/
def ioArguments {Options : Type} (getOptions : Hash p → Except Raised Options)
    (source : FileArgument (List Byte)) (destination : FileArgument φ)
    (options : Argument p) : Except Raised (IoArguments φ Options) := do
  let source ← getFile source
  let destination ← getFile destination
  let options ← checkHash options
  let sourceBufferLength ← lzwsExtGetSizeOptionValue options .sourceBufferLength
  let destinationBufferLength ← lzwsExtGetSizeOptionValue options .destinationBufferLength
  let gvl ← lzwsExtGetBoolOptionValue options .gvl
  let options ← getOptions options
  return { source, destination, sourceBufferLength, destinationBufferLength, gvl, options }

/-- The checks of `lzws_ext_compress_io`. -/
def compressIoArguments (codec : FileCodec) (source : FileArgument (List Byte))
    (destination : FileArgument φ) (options : Argument p) :
    Except Raised (IoArguments φ CompressorOptions) :=
  ioArguments (lzwsExtGetCompressorOptions codec.defaultCompressorOptions) source destination
    options

/-- The checks of `lzws_ext_decompress_io`. -/
def decompressIoArguments (codec : FileCodec) (source : FileArgument (List Byte))
    (destination : FileArgument φ) (options : Argument p) :
    Except Raised (IoArguments φ DecompressorOptions) :=
  ioArguments (lzwsExtGetDecompressorOptions codec.defaultDecompressorOptions) source destination
    options

/-! ## The exported functions -/

/-- The end of a run of an exported function. -/
structure IoRun (φ : Type) where
  /-- `.ok ()` is the return of `nil`. -/
  outcome : Except Raised Unit
  /-- The bytes that the library handed to `fwrite`. -/
  written : List Byte
  destination : FileArgument φ
  environment : Environment

/-- `compress_wrapper` or `decompress_wrapper` under `LZWS_EXT_GVL_WRAP`, and what follows it. -/
def wrapFileCall (p : Platform) (stdio : Stdio φ Byte) (gvl : Bool) (steps : List FileStep)
    (destination : φ) (env : Environment) : IoRun φ :=
  match gvlWrap p gvl env with
  | (.before, env) => ⟨.error .interrupt, [], .stdio destination, env⟩
  | (.after, env) =>
      let call := runFileSteps stdio steps destination
      ⟨.error .interrupt, call.written, .stdio call.destination, env⟩
  | (.nothing, env) =>
      let call := runFileSteps stdio steps destination
      match call.result with
      | some error =>
          ⟨.error (lzwsExtRaiseError (getFileError error)), call.written,
            .stdio call.destination, env⟩
      -- Nobody looks at what `fflush` returns.
      | none => ⟨.ok (), call.written, .stdio (stdio.fflush call.destination).2, env⟩

/--
The common text of `lzws_ext_compress_io` and its sibling; `steps` are those of
`lzws_compress_file` or `lzws_decompress_file`.
-/
def ioFunction {Options : Type} (p : Platform) (stdio : Stdio φ Byte)
    (arguments : Except Raised (IoArguments φ Options))
    (steps : List Byte → Nat → Nat → Options → List FileStep)
    (destination : FileArgument φ) (env : Environment) : IoRun φ :=
  match arguments with
  | .error exception => ⟨.error exception, [], destination, env⟩
  | .ok arguments =>
      wrapFileCall p stdio arguments.gvl (steps arguments.source arguments.sourceBufferLength
        arguments.destinationBufferLength arguments.options) arguments.destination env

/-- `lzws_ext_compress_io` -/
def lzwsExtCompressIo (stdio : Stdio φ Byte) (codec : FileCodec)
    (source : FileArgument (List Byte)) (destination : FileArgument φ) (options : Argument p)
    (env : Environment) : IoRun φ :=
  ioFunction p stdio (compressIoArguments codec source destination options) codec.compressFile
    destination env

/-- `lzws_ext_decompress_io` -/
def lzwsExtDecompressIo (stdio : Stdio φ Byte) (codec : FileCodec)
    (source : FileArgument (List Byte)) (destination : FileArgument φ) (options : Argument p)
    (env : Environment) : IoRun φ :=
  ioFunction p stdio (decompressIoArguments codec source destination options) codec.decompressFile
    destination env

/-! ## Calls of the library -/

/-- No step fails of itself. -/
def NoFailure (steps : List FileStep) : Prop :=
  ∀ error, FileStep.fail error ∉ steps

variable {stdio : Stdio φ Byte}

/-- What is known of a call that returned 0. -/
theorem runFileSteps_ok {steps : List FileStep} {destination : φ}
    (ok : (runFileSteps stdio steps destination).result = none) :
    NoFailure steps ∧ (runFileSteps stdio steps destination).written = outputOf steps := by
  induction steps generalizing destination with
  | nil => exact ⟨fun _ => List.not_mem_nil, rfl⟩
  | cons step rest ih =>
      cases step with
      | fail error => cases ok
      | write bytes =>
          rw [runFileSteps] at ok ⊢
          generalize stdio.fwrite destination bytes = result at ok ⊢
          rcases result with ⟨accepted, after⟩
          cases accepted with
          | false => cases ok
          | true =>
              obtain ⟨noFailure, written⟩ := ih ok
              refine ⟨?_, congrArg (bytes ++ ·) written⟩
              intro error member
              rcases List.mem_cons.mp member with impossible | later
              · cases impossible
              · exact noFailure error later

/-- Whatever comes of a call, its destination was handed what is written. -/
theorem runFileSteps_takes (lawful : stdio.Lawful) (steps : List FileStep) (destination : φ) :
    stdio.Takes destination (runFileSteps stdio steps destination).destination
      (runFileSteps stdio steps destination).written := by
  induction steps generalizing destination with
  | nil => exact .refl destination
  | cons step rest ih =>
      cases step with
      | fail error => exact .refl destination
      | write bytes =>
          have takes := lawful.fwrite_takes destination bytes
          rw [runFileSteps]
          generalize stdio.fwrite destination bytes = result at takes ⊢
          rcases result with ⟨accepted, after⟩
          cases accepted with
          | false => exact takes
          | true => exact takes.trans (ih after)

/-- A write-out that fails during a call is reported. -/
theorem runFileSteps_failures (lawful : stdio.Lawful) {steps : List FileStep} {destination : φ}
    (failed : stdio.failures (runFileSteps stdio steps destination).destination ≠
      stdio.failures destination) :
    (runFileSteps stdio steps destination).result = some .writeFailed := by
  induction steps generalizing destination with
  | nil => exact absurd rfl failed
  | cons step rest ih =>
      cases step with
      | fail error => exact absurd rfl failed
      | write bytes =>
          have kept := (lawful.fwrite_accepts_iff destination bytes).mp
          rw [runFileSteps] at failed ⊢
          generalize stdio.fwrite destination bytes = result at failed kept ⊢
          rcases result with ⟨accepted, after⟩
          cases accepted with
          | false => rfl
          | true =>
              apply ih
              rw [kept rfl]
              exact failed

end RubyLzws.Ext
