import RubyLzws.Ext.Io
import RubyLzws.Ext.StoredCodec

/-!
# What a file function has delivered when it returns

A write-out that fails while the library writes is reported through the result
of the library.  What is then still in the buffer of the destination is written
out by `fflush`, whose result nobody looks at.
-/

namespace RubyLzws.Results.FileDelivery

open Ext Library.StdioFile

variable {φ : Type} {stdio : Stdio φ Byte} {p : Platform}

/--
A run from the destination `file` tells the truth: where it returns `nil`, all
that was written has reached the descriptor in order; where a write-out failed,
it raises a `WriteIOError`, unless an interrupt was raised instead.
-/
def Truthful (stdio : Stdio φ Byte) (file : φ) (run : IoRun φ) : Prop :=
  ∃ after, run.destination = .stdio after ∧
    (run.outcome = .ok () → stdio.delivered after = stdio.content file ++ run.written) ∧
    (stdio.failures after ≠ stdio.failures file →
      run.outcome = .error (lzwsExtRaiseError .writeIo) ∨ run.outcome = .error .interrupt)

/-- The library succeeds with these steps, and the write-out made by `fflush` after it fails. -/
structure TailLost (stdio : Stdio φ Byte) (steps : List FileStep) (file : φ) : Prop where
  succeeded : (runFileSteps stdio steps file).result = none
  flushFails : (stdio.fflush (runFileSteps stdio steps file).destination).1 = false

/-- A library that succeeds has met no failing write-out. -/
theorem runFileSteps_kept (lawful : stdio.Lawful) {steps : List FileStep} {file : φ}
    (succeeded : (runFileSteps stdio steps file).result = none) :
    stdio.failures (runFileSteps stdio steps file).destination = stdio.failures file ∧
      stdio.content (runFileSteps stdio steps file).destination =
        stdio.content file ++ (runFileSteps stdio steps file).written := by
  have kept : stdio.failures (runFileSteps stdio steps file).destination =
      stdio.failures file := by
    by_contra failed
    rw [runFileSteps_failures lawful failed] at succeeded
    cases succeeded
  exact ⟨kept, (runFileSteps_takes lawful steps file).lossless kept⟩

/-- The wrapped call tells the truth just if it is interrupted or does not lose the tail. -/
theorem wrapFileCall_truthful_iff (lawful : stdio.Lawful) (gvl : Bool) (steps : List FileStep)
    (file : φ) (env : Environment) :
    Truthful stdio file (wrapFileCall p stdio gvl steps file env) ↔
      ((gvlWrap p gvl env).1 = .nothing → ¬ TailLost stdio steps file) := by
  unfold wrapFileCall
  rcases gvlWrap p gvl env with ⟨delivery, later⟩
  cases delivery with
  | before =>
      refine iff_of_true ⟨file, rfl, ?_, fun _ => .inr rfl⟩ (fun impossible => by cases impossible)
      intro impossible
      cases impossible
  | after =>
      refine iff_of_true ⟨_, rfl, ?_, fun _ => .inr rfl⟩ (fun impossible => by cases impossible)
      intro impossible
      cases impossible
  | nothing =>
      have lost : TailLost stdio steps file ↔ _ := ⟨fun ⟨done, fails⟩ => And.intro done fails,
        fun ⟨done, fails⟩ => ⟨done, fails⟩⟩
      have reported := @runFileSteps_failures φ stdio lawful steps file
      have kept := @runFileSteps_kept φ stdio lawful steps file
      generalize runFileSteps stdio steps file = call at lost reported kept ⊢
      rcases call with ⟨result, written, destination⟩
      cases result with
      | some error =>
          refine iff_of_true ⟨destination, rfl, ?_, ?_⟩ ?_
          · intro impossible
            cases impossible
          · intro failed
            cases reported failed
            exact .inl rfl
          · intro _ tailLost
            cases (lost.mp tailLost).1
      | none =>
          obtain ⟨noFailure, content⟩ := kept rfl
          cases flushed : (stdio.fflush destination).1 with
          | false =>
              refine iff_of_false ?_ (fun good => good rfl (lost.mpr ⟨rfl, flushed⟩))
              rintro ⟨after, same, delivered, _⟩
              cases same
              apply lawful.fflush_keeps_back destination flushed
              rw [delivered rfl]
              exact content.symm
          | true =>
              refine iff_of_true ⟨_, rfl, fun _ => ?_, fun failed => ?_⟩ ?_
              · rw [lawful.fflush_delivers flushed]
                exact content
              · rw [(lawful.fflush_succeeds_iff destination).mp flushed] at failed
                exact absurd noFailure failed
              · intro _ tailLost
                have fails := (lost.mp tailLost).2
                rw [flushed] at fails
                cases fails

/-- The destination of accepted arguments is the file that was passed. -/
theorem ioArguments_destination {Options : Type} {getOptions : Hash p → Except Raised Options}
    {source : FileArgument (List Byte)} {file : φ} {options : Argument p}
    {arguments : IoArguments φ Options}
    (accepted : ioArguments getOptions source (.stdio file) options = .ok arguments) :
    arguments.destination = file := by
  obtain ⟨_, _, accepted⟩ := bind_eq_ok.mp accepted
  obtain ⟨destination, same, accepted⟩ := bind_eq_ok.mp accepted
  obtain ⟨_, _, accepted⟩ := bind_eq_ok.mp accepted
  obtain ⟨_, _, accepted⟩ := bind_eq_ok.mp accepted
  obtain ⟨_, _, accepted⟩ := bind_eq_ok.mp accepted
  obtain ⟨_, _, accepted⟩ := bind_eq_ok.mp accepted
  obtain ⟨_, _, accepted⟩ := bind_eq_ok.mp accepted
  cases same
  cases accepted
  rfl

/-- Refused arguments leave the destination as it was. -/
theorem truthful_of_refused {file : φ} {exception : Raised} {env : Environment} :
    Truthful stdio file ⟨.error exception, [], .stdio file, env⟩ := by
  refine ⟨file, rfl, ?_, fun impossible => absurd rfl impossible⟩
  intro impossible
  cases impossible

/-- The common text of both functions. -/
theorem ioFunction_truthful_iff {Options : Type} {getOptions : Hash p → Except Raised Options}
    (lawful : stdio.Lawful) (steps : List Byte → Nat → Nat → Options → List FileStep)
    (source : FileArgument (List Byte)) (file : φ) (options : Argument p) (env : Environment) :
    Truthful stdio file (ioFunction p stdio (ioArguments getOptions source (.stdio file) options)
        steps (.stdio file) env) ↔
      ∀ arguments, ioArguments getOptions source (.stdio file) options = .ok arguments →
        (gvlWrap p arguments.gvl env).1 = .nothing →
        ¬ TailLost stdio (steps arguments.source arguments.sourceBufferLength
          arguments.destinationBufferLength arguments.options) file := by
  unfold ioFunction
  cases accepted : ioArguments getOptions source (.stdio file) options with
  | error exception =>
      apply iff_of_true truthful_of_refused
      intro _ impossible
      cases impossible
  | ok arguments =>
      dsimp only
      rw [ioArguments_destination accepted, wrapFileCall_truthful_iff lawful]
      constructor
      · intro kept _ same
        cases same
        exact kept
      · exact fun kept => kept arguments rfl

/--
**When the file functions tell the truth.**  Whatever library stands behind the destination,
as long as it reports failing write-outs, whatever its file has been through, and for every
source and whatever steps lzws takes: a run of either function tells the truth just if its
arguments are refused, it is interrupted, lzws does not succeed, or the write-out made by
`fflush` does not fail.
-/
theorem io_functions_truthful_iff_tail_kept (lawful : stdio.Lawful) (codec : FileCodec)
    (source : FileArgument (List Byte)) (file : φ) (options : Argument p) (env : Environment) :
    (Truthful stdio file (lzwsExtCompressIo stdio codec source (.stdio file) options env) ↔
      ∀ arguments, compressIoArguments codec source (.stdio file) options = .ok arguments →
        (gvlWrap p arguments.gvl env).1 = .nothing →
        ¬ TailLost stdio (codec.compressFile arguments.source arguments.sourceBufferLength
          arguments.destinationBufferLength arguments.options) file) ∧
    (Truthful stdio file (lzwsExtDecompressIo stdio codec source (.stdio file) options env) ↔
      ∀ arguments, decompressIoArguments codec source (.stdio file) options = .ok arguments →
        (gvlWrap p arguments.gvl env).1 = .nothing →
        ¬ TailLost stdio (codec.decompressFile arguments.source arguments.sourceBufferLength
          arguments.destinationBufferLength arguments.options) file) := by
  constructor
  · exact ioFunction_truthful_iff lawful codec.compressFile source file options env
  · exact ioFunction_truthful_iff lawful codec.decompressFile source file options env

/-! ## A full disk -/

/-- File functions that write the whole result at once. -/
def storedFiles : FileCodec where
  defaultCompressorOptions := StoredCodec.compressor.defaultOptions
  defaultDecompressorOptions := StoredCodec.decompressor.defaultOptions
  compressFile source _ _ options := [.write (StoredCodec.archive options source)]
  decompressFile source _ _ options :=
    [.write (source.drop (if options.withoutMagicHeader then 1 else 3))]

/-- A new file on a full disk: no write-out succeeds, and nothing gets through. -/
def fullDisk : BlockFile Byte where
  capacity := 4
  buffered := []
  delivered := []
  writeOuts := List.replicate 16 (some 0)
  failures := 0

/-- The options of a call that holds the lock. -/
def lockedOptions (p : Platform) : Hash p
  | .sourceBufferLength => some (.integer 0)
  | .destinationBufferLength => some (.integer 0)
  | .gvl => some .true
  | _ => none

/-- What has reached the descriptor of a destination. -/
def deliveredTo : FileArgument (BlockFile Byte) → Option (List Byte)
  | .stdio file => some file.delivered
  | _ => none

/-- Seven bytes do not fit the buffer, so that lzws sees the full disk: a `WriteIOError`. -/
theorem io_functions_truthful_iff_tail_kept_long_archive :
    ∃ run, lzwsExtCompressIo (p := .linux64) (blockStdio Byte) storedFiles (.stdio [1, 2, 3, 4])
        (.stdio fullDisk) (.hash (lockedOptions .linux64)) .calm = run ∧
      run.outcome = .error (lzwsExtRaiseError .writeIo) ∧
      Truthful (blockStdio Byte) fullDisk run := by
  refine ⟨_, rfl, rfl, ?_⟩
  refine (io_functions_truthful_iff_tail_kept (blockStdio_lawful Byte) storedFiles
    (.stdio [1, 2, 3, 4]) fullDisk (.hash (lockedOptions .linux64)) .calm).1.mpr ?_
  rintro arguments accepted _ ⟨succeeded, _⟩
  cases accepted
  cases succeeded

/--
The archive of an empty source stays in the buffer; the flush fails, and
`lzws_ext_compress_io` returns `nil` with nothing delivered.
-/
theorem compress_to_full_disk_returns :
    ∃ run, lzwsExtCompressIo (p := .linux64) (blockStdio Byte) storedFiles (.stdio [])
        (.stdio fullDisk) (.hash (lockedOptions .linux64)) .calm = run ∧
      run.outcome = .ok () ∧ run.written = [0x1f, 0x9d, 0x90] ∧
      deliveredTo run.destination = some [] ∧ ¬ Truthful (blockStdio Byte) fullDisk run := by
  have returned : (lzwsExtCompressIo (p := .linux64) (blockStdio Byte) storedFiles (.stdio [])
      (.stdio fullDisk) (.hash (lockedOptions .linux64)) .calm).outcome = .ok () := rfl
  have written : (lzwsExtCompressIo (p := .linux64) (blockStdio Byte) storedFiles (.stdio [])
      (.stdio fullDisk) (.hash (lockedOptions .linux64)) .calm).written = [0x1f, 0x9d, 0x90] := rfl
  have delivered : deliveredTo (lzwsExtCompressIo (p := .linux64) (blockStdio Byte) storedFiles
      (.stdio []) (.stdio fullDisk) (.hash (lockedOptions .linux64)) .calm).destination =
      some [] := rfl
  refine ⟨_, rfl, returned, written, delivered, ?_⟩
  rintro ⟨after, same, all, _⟩
  have bytes := all returned
  rw [written] at bytes
  rw [same] at delivered
  have nothing : (blockStdio Byte).delivered after = [] := Option.some.inj delivered
  rw [nothing] at bytes
  cases bytes

end RubyLzws.Results.FileDelivery
