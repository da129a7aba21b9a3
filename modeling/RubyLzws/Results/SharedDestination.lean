import RubyLzws.Results.FileDelivery

/-!
# Destinations of several calls

Ruby keeps one `FILE` for an open file, so that calls of the file functions that are given
the same destination share its buffer.  A call that raises does not flush; what it left in
the buffer is delivered by the next one, in front of its own output.
-/

namespace RubyLzws.Results.SharedDestination

open Ext Library.StdioFile

variable {φ : Type} {stdio : Stdio φ Byte} {p : Platform}

/-- A call of one of the file functions, up to its destination. -/
inductive IoCall (p : Platform) where
  | compress (source : FileArgument (List Byte)) (options : Argument p)
  | decompress (source : FileArgument (List Byte)) (options : Argument p)

def IoCall.run (stdio : Stdio φ Byte) (files : FileCodec) (destination : φ) (env : Environment) :
    IoCall p → IoRun φ
  | .compress source options =>
      lzwsExtCompressIo stdio files source (.stdio destination) options env
  | .decompress source options =>
      lzwsExtDecompressIo stdio files source (.stdio destination) options env

/-- Calls one after the other on one destination, each in its own surroundings. -/
inductive Serves (stdio : Stdio φ Byte) (files : FileCodec) (p : Platform) (file : φ) :
    List (IoRun φ) → φ → Prop where
  | start : Serves stdio files p file [] file
  | call {runs : List (IoRun φ)} {before after : φ}
      (earlier : Serves stdio files p file runs before) (call : IoCall p) (env : Environment)
      (left : (call.run stdio files before env).destination = .stdio after) :
      Serves stdio files p file (runs ++ [call.run stdio files before env]) after

/-- What all these calls handed to their destination. -/
def writtenBy (runs : List (IoRun φ)) : List Byte := runs.flatMap IoRun.written

/-! ## One call -/

/-- What one call did to its destination. -/
structure Contributes (stdio : Stdio φ Byte) (file after : φ) (run : IoRun φ) : Prop where
  takes : stdio.Takes file after run.written
  /-- Who does not look at what has been delivered misses only the failure of a flush. -/
  shown : stdio.failures after ≠ stdio.failures file →
    run.outcome = .error (lzwsExtRaiseError .writeIo) ∨ run.outcome = .error .interrupt ∨
      run.outcome = .ok () ∧ stdio.delivered after ≠ stdio.content file ++ run.written
  /-- A return settles everything, as long as the write-outs succeed. -/
  settled : run.outcome = .ok () → stdio.failures after = stdio.failures file →
    stdio.buffered after = [] ∧ stdio.delivered after = stdio.content file ++ run.written

/-- A call that did not reach the library. -/
theorem contributes_nothing {file : φ} {exception : Raised} {env : Environment} :
    Contributes stdio file file ⟨.error exception, [], .stdio file, env⟩ := by
  refine ⟨.refl file, fun failed => absurd rfl failed, ?_⟩
  intro impossible
  cases impossible

/-- A flush that ends a call of the library. -/
theorem contributes_flush (lawful : stdio.Lawful) {file destination : φ} {written : List Byte}
    {env : Environment} (takes : stdio.Takes file destination written)
    (kept : stdio.failures destination = stdio.failures file) :
    Contributes stdio file (stdio.fflush destination).2
      ⟨.ok (), written, .stdio (stdio.fflush destination).2, env⟩ := by
  have content := takes.lossless kept
  have flushed := takes.trans (lawful.fflush_takes destination)
  rw [List.append_nil] at flushed
  cases succeeds : (stdio.fflush destination).1 with
  | true =>
      have silent := (lawful.fflush_succeeds_iff destination).mp succeeds
      have delivered := lawful.fflush_delivers succeeds
      rw [content] at delivered
      refine ⟨flushed, fun failed => absurd (silent.trans kept) failed, fun _ _ => ?_⟩
      exact ⟨lawful.fflush_empties destination succeeds, delivered⟩
  | false =>
      have short := lawful.fflush_keeps_back destination succeeds
      rw [content] at short
      refine ⟨flushed, fun _ => .inr (.inr ⟨rfl, short⟩), fun _ same => ?_⟩
      have silent := (lawful.fflush_succeeds_iff destination).mpr (same.trans kept.symm)
      rw [succeeds] at silent
      cases silent

theorem wrapFileCall_contributes (lawful : stdio.Lawful) (gvl : Bool) (steps : List FileStep)
    (file : φ) (env : Environment) :
    ∃ after, (wrapFileCall p stdio gvl steps file env).destination = .stdio after ∧
      Contributes stdio file after (wrapFileCall p stdio gvl steps file env) := by
  unfold wrapFileCall
  rcases gvlWrap p gvl env with ⟨delivery, later⟩
  have takes := runFileSteps_takes lawful steps file
  have reported := @runFileSteps_failures φ stdio lawful steps file
  have kept := @FileDelivery.runFileSteps_kept φ stdio lawful steps file
  generalize runFileSteps stdio steps file = call at takes reported kept ⊢
  rcases call with ⟨result, written, destination⟩
  cases delivery with
  | before => exact ⟨file, rfl, contributes_nothing⟩
  | after =>
      refine ⟨destination, rfl, takes, fun _ => .inr (.inl rfl), ?_⟩
      intro impossible
      cases impossible
  | nothing =>
      cases result with
      | some error =>
          refine ⟨destination, rfl, takes, fun failed => ?_, ?_⟩
          · cases reported failed
            exact .inl rfl
          · intro impossible
            cases impossible
      | none => exact ⟨_, rfl, contributes_flush lawful takes (kept rfl).1⟩

theorem ioFunction_contributes {Options : Type} {getOptions : Hash p → Except Raised Options}
    (lawful : stdio.Lawful) (steps : List Byte → Nat → Nat → Options → List FileStep)
    (source : FileArgument (List Byte)) (file : φ) (options : Argument p) (env : Environment) :
    ∃ after, (ioFunction p stdio (ioArguments getOptions source (.stdio file) options) steps
        (.stdio file) env).destination = .stdio after ∧
      Contributes stdio file after (ioFunction p stdio
        (ioArguments getOptions source (.stdio file) options) steps (.stdio file) env) := by
  unfold ioFunction
  cases accepted : ioArguments getOptions source (.stdio file) options with
  | error exception => exact ⟨file, rfl, contributes_nothing⟩
  | ok arguments =>
      dsimp only
      rw [FileDelivery.ioArguments_destination accepted]
      exact wrapFileCall_contributes lawful arguments.gvl _ file env

theorem IoCall.contributes (lawful : stdio.Lawful) (files : FileCodec) (call : IoCall p)
    (file : φ) (env : Environment) :
    ∃ after, (call.run stdio files file env).destination = .stdio after ∧
      Contributes stdio file after (call.run stdio files file env) := by
  cases call with
  | compress source options =>
      exact ioFunction_contributes lawful files.compressFile source file options env
  | decompress source options =>
      exact ioFunction_contributes lawful files.decompressFile source file options env

/-! ## All calls -/

theorem Serves.takes (lawful : stdio.Lawful) {files : FileCodec} {file after : φ}
    {runs : List (IoRun φ)} (serves : Serves stdio files p file runs after) :
    stdio.Takes file after (writtenBy runs) := by
  induction serves with
  | start => exact .refl file
  | @call runs before after earlier call env left ih =>
      obtain ⟨after', left', contributes⟩ := call.contributes lawful files before env
      rw [left'] at left
      cases left
      have all := ih.trans contributes.takes
      unfold writtenBy at all ⊢
      rw [List.flatMap_append, List.flatMap_singleton]
      exact all

/--
**A destination keeps account of all its calls.**  Whatever calls it has served, also ones
that raised, and whatever write-outs have failed: what it has taken stands in the order of
the calls, nothing is doubled or moved or comes back from the descriptor, and nothing is
missing unless a write-out failed.  A further call shows such a failure, up to one of its
flush; and if it returns with its write-outs done, then it has delivered all that was left,
in front of its own output.
-/
theorem destination_keeps_account (lawful : stdio.Lawful) {files : FileCodec} {file after : φ}
    {runs : List (IoRun φ)} (serves : Serves stdio files p file runs after) :
    stdio.Takes file after (writtenBy runs) ∧
      ∀ (call : IoCall p) env, ∃ last,
        (call.run stdio files after env).destination = .stdio last ∧
        Contributes stdio after last (call.run stdio files after env) ∧
        ((call.run stdio files after env).outcome = .ok () →
          stdio.failures last = stdio.failures file →
          stdio.buffered last = [] ∧ stdio.delivered last =
            stdio.content file ++ writtenBy runs ++ (call.run stdio files after env).written) := by
  have takes := serves.takes lawful
  refine ⟨takes, ?_⟩
  intro call env
  obtain ⟨last, left, contributes⟩ := call.contributes lawful files after env
  refine ⟨last, left, contributes, ?_⟩
  intro returned same
  -- The failures of all calls are counted together, so that none has met one.
  have earlier := takes.failures
  have later := contributes.takes.failures
  obtain ⟨empty, delivered⟩ := contributes.settled returned (by omega)
  rw [takes.lossless (by omega)] at delivered
  exact ⟨empty, delivered⟩

/-- A new file whose buffer holds two small archives. -/
def smallFile : BlockFile Byte where
  capacity := 16
  buffered := []
  delivered := []
  writeOuts := []
  failures := 0

/-- The options of a call that releases the lock. -/
def unlockedOptions (p : Platform) : Hash p
  | .gvl => some .false
  | name => FileDelivery.lockedOptions p name

/-- One byte is compressed to a file. -/
def compressByte (byte : Byte) : IoCall .linux64 :=
  .compress (.stdio [byte]) (.hash (unlockedOptions .linux64))

/-- The archive of an interrupted call is delivered by the next call, in front of its own. -/
theorem destination_keeps_account_interrupted :
    ∃ run after, Serves (blockStdio Byte) FileDelivery.storedFiles .linux64 smallFile [run]
        after ∧
      run.outcome = .error .interrupt ∧ after.delivered = [] ∧
      ∃ last, ((compressByte 8).run (blockStdio Byte) FileDelivery.storedFiles after
          .calm).destination = .stdio last ∧
        last.delivered = [0x1f, 0x9d, 0x90, 7] ++ [0x1f, 0x9d, 0x90, 8] := by
  have serves : Serves (blockStdio Byte) FileDelivery.storedFiles .linux64 smallFile _ _ :=
    .call .start (compressByte 7) { Environment.calm with deliveries := [.after] } rfl
  obtain ⟨_, next⟩ := destination_keeps_account (blockStdio_lawful Byte) serves
  obtain ⟨last, left, _, delivers⟩ := next (compressByte 8) .calm
  cases left
  exact ⟨_, _, serves, rfl, rfl, _, rfl, (delivers rfl rfl).2⟩

end RubyLzws.Results.SharedDestination
