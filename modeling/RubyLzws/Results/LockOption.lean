import RubyLzws.Ext.Interrupts
import RubyLzws.Results.FileDelivery

/-!
# What the lock option decides for a call on its own

Releasing the lock lets interrupts and other threads in.  This is about calls whose source,
files and object no other thread touches.  Where no interrupt is delivered, such a call does
what it does with the lock kept; where one is, a method of a stream object has run in full
or not at all.
-/

namespace RubyLzws.Results.LockOption

open Ext Library.StdioFile

variable {σ τ φ : Type} {p : Platform} {μ : Type}

/-- The string function, unless interrupted, does what it does with the lock kept. -/
def StringKeepsLock (function : Argument p → Environment → Option (StringRun p)) : Prop :=
  ∀ options env run, function options env = some run → run.outcome ≠ .error .interrupt →
    function options.keepLock env.withoutDeliveries = some run.withoutDeliveries

/-- The file function, unless interrupted, does what it does with the lock kept. -/
def FileKeepsLock (function : Argument p → Environment → IoRun φ) : Prop :=
  ∀ options env, (function options env).outcome ≠ .error .interrupt →
    function options.keepLock env.withoutDeliveries = (function options env).withoutDeliveries

/-- An object that shows no interrupt shows what it shows with the lock kept. -/
def StreamKeepsLock (call : μ → World σ p → Effect σ p) (keepLock : μ → μ) : Prop :=
  ∀ methods env trace last, follow call methods (World.start σ p env).allocate =
      some (trace, last) →
    (∀ step ∈ trace, step.effect.seen? ≠ some (.raised .interrupt)) →
    ∃ traceKept lastKept,
      follow call (methods.map keepLock) (World.start σ p env.withoutDeliveries).allocate =
        some (traceKept, lastKept) ∧
      (traceKept.map fun step => step.effect.seen?) = (trace.map fun step => step.effect.seen?) ∧
      ∃ contents, last.Holds contents ∧ lastKept.Holds contents.keepLock

/-- Next to every interrupted life there is one with the lock kept that it shadows. -/
def AllOrNothing (call : μ → World σ p → Effect σ p) (keepLock : μ → μ) : Prop :=
  ∀ methods env, env.withoutDeliveries.Quiet → ∃ trace last kept traceKept lastKept,
    follow call methods (World.start σ p env).allocate = some (trace, last) ∧
      follow call kept (World.start σ p .calm).allocate = some (traceKept, lastKept) ∧
      (∃ shown shownKept, (trace.map fun step => step.effect.seen?) = shown.map some ∧
        (traceKept.map fun step => step.effect.seen?) = shownKept.map some ∧
        Shadows keepLock methods shown kept shownKept) ∧
      ∃ contents, last.Holds contents ∧ lastKept.Holds contents.keepLock

section Streams

variable {call : μ → World σ p → Effect σ p} {observe : μ → Contents σ → Environment → Observed σ}
  {keepLock : μ → μ}

theorem streamKeepsLock (refines : RefinesContents call observe)
    (whole : PassesWhole observe keepLock) : StreamKeepsLock call keepLock := by
  intro methods env trace last followed undisturbed
  obtain ⟨trace', last', followed', shown, holds, _⟩ := refines methods env
  rw [followed] at followed'
  cases followed'
  have silent : .raised .interrupt ∉ (observeAll observe methods none env).1 := by
    intro interrupted
    have seen := List.mem_map_of_mem (f := some) interrupted
    rw [← shown] at seen
    obtain ⟨step, member, same⟩ := List.mem_map.mp seen
    exact undisturbed step member same
  obtain ⟨sameShown, sameLeft⟩ := observeAll_keepLock whole methods silent
  obtain ⟨traceKept, lastKept, followedKept, shownKept, holdsKept, _⟩ :=
    refines (methods.map keepLock) env.withoutDeliveries
  refine ⟨traceKept, lastKept, followedKept, ?_, (observeAll observe methods none env).2.1, holds,
    ?_⟩
  · rw [shownKept, shown]
    exact congrArg (List.map some) sameShown
  · rw [← sameLeft]
    exact holdsKept

theorem allOrNothing (refines : RefinesContents call observe)
    (whole : PassesWhole observe keepLock) (depends : DependsOnContents observe) :
    AllOrNothing call keepLock := by
  intro methods env ample
  obtain ⟨kept, shadows, sameLeft⟩ : ∃ kept,
      Shadows keepLock methods (observeAll observe methods none env).1 kept
          (observeAll observe kept none .calm).1 ∧
        (observeAll observe kept none .calm).2.1 =
          (observeAll observe methods none env).2.1.keepLock :=
    observeAll_shadows whole depends methods ample Environment.calm_quiet
  obtain ⟨trace, last, followed, shown, holds, _⟩ := refines methods env
  obtain ⟨traceKept, lastKept, followedKept, shownKept, holdsKept, _⟩ :=
    refines kept .calm
  refine ⟨trace, last, kept, traceKept, lastKept, followed, followedKept,
    ⟨_, _, shown, shownKept, shadows⟩, (observeAll observe methods none env).2.1, holds, ?_⟩
  rw [← sameLeft]
  exact holdsKept

end Streams

/--
**A call on its own shows the lock option by interrupts only.**  In every surroundings, a
call that no interrupt ends, and whose source, files and object are touched by no other
thread, does with `gvl: true` what it does with `gvl: false`: the string functions return or
raise the same and release the same, the file functions write the same, and the stream
objects show the same in every life.
-/
theorem lone_calls_show_lock_by_interrupts (compressor : CompressorCodec σ)
    (decompressor : DecompressorCodec τ) (stdio : Stdio φ Byte) (files : FileCodec)
    (p : Platform) :
    (∀ fuel sourceValue,
      StringKeepsLock (p := p) (lzwsExtCompressString compressor fuel sourceValue) ∧
      StringKeepsLock (p := p) (lzwsExtDecompressString decompressor fuel sourceValue)) ∧
    (∀ source destination,
      FileKeepsLock (p := p) (lzwsExtCompressIo stdio files source destination) ∧
      FileKeepsLock (p := p) (lzwsExtDecompressIo stdio files source destination)) ∧
    StreamKeepsLock (p := p) (CompressorMethod.call compressor) CompressorMethod.keepLock ∧
    StreamKeepsLock (p := p) (DecompressorMethod.call decompressor)
      DecompressorMethod.keepLock := by
  refine ⟨fun fuel sourceValue => ⟨?_, ?_⟩, fun source destination => ⟨?_, ?_⟩, ?_, ?_⟩
  · exact fun _ _ _ executed undisturbed => lzwsExtCompressString_keepLock executed undisturbed
  · exact fun _ _ _ executed undisturbed => lzwsExtDecompressString_keepLock executed undisturbed
  · exact fun _ _ undisturbed => lzwsExtCompressIo_keepLock undisturbed
  · exact fun _ _ undisturbed => lzwsExtDecompressIo_keepLock undisturbed
  · exact streamKeepsLock (refinesContents fun method {_ _} => method.simulates compressor)
      (CompressorMethod.passesWhole compressor p)
  · exact streamKeepsLock (refinesContents fun method {_ _} => method.simulates decompressor)
      (DecompressorMethod.passesWhole decompressor p)

/-- An archive through windows of two bytes, written before the interrupt that is still to come. -/
theorem lone_calls_show_lock_by_interrupts_archive :
    ∃ run, lzwsExtCompressString (p := .linux64) StoredCodec.compressor 8
        (.string (.ofBytes [1, 2, 3])) (.hash (StoredCodec.options .linux64 2 false))
        { Environment.calm with deliveries := .replicate 8 .nothing ++ [.after] } = some run ∧
      lzwsExtCompressString StoredCodec.compressor 8 (.string (.ofBytes [1, 2, 3]))
        (.hash (StoredCodec.options .linux64 2 false).keepLock) .calm =
          some run.withoutDeliveries := by
  have found : ((lzwsExtCompressString (p := .linux64) StoredCodec.compressor 8
      (.string (.ofBytes [1, 2, 3])) (.hash (StoredCodec.options .linux64 2 false))
      { Environment.calm with deliveries := .replicate 8 .nothing ++ [.after] }).bind fun run =>
        run.outcome.toOption.map fun archive => archive.bytes) =
      some [0x1f, 0x9d, 0x90, 1, 2, 3] := by
    decide +kernel
  obtain ⟨run, executed, read⟩ := Option.bind_eq_some_iff.mp found
  obtain ⟨archive, returned, _⟩ := Option.map_eq_some_iff.mp read
  have succeeded : run.outcome = .ok archive := ok_of_toOption returned
  refine ⟨run, executed, ?_⟩
  have locked := ((lone_calls_show_lock_by_interrupts StoredCodec.compressor
    StoredCodec.decompressor (blockStdio Byte) FileDelivery.storedFiles .linux64).1 8
      (.string (.ofBytes [1, 2, 3]))).1
  exact locked (.hash (StoredCodec.options .linux64 2 false)) _ run executed (by simp [succeeded])

/--
**Interrupts are all or nothing.**  Whatever interrupts are delivered, as long as memory
suffices and no other thread calls the object: some of the methods did run and did all that
they do with the lock kept, the others did nothing, and only the answers of interrupted
methods are lost.
-/
theorem interrupts_all_or_nothing (compressor : CompressorCodec σ)
    (decompressor : DecompressorCodec τ) (p : Platform) :
    AllOrNothing (p := p) (CompressorMethod.call compressor) CompressorMethod.keepLock ∧
      AllOrNothing (p := p) (DecompressorMethod.call decompressor) DecompressorMethod.keepLock := by
  constructor
  · exact allOrNothing (refinesContents fun method {_ _} => method.simulates compressor)
      (CompressorMethod.passesWhole compressor p) (CompressorMethod.dependsOnContents compressor p)
  · exact allOrNothing (refinesContents fun method {_ _} => method.simulates decompressor)
      (DecompressorMethod.passesWhole decompressor p)
      (DecompressorMethod.dependsOnContents decompressor p)

/-- One byte is written three times; the first attempt did not run, the second did. -/
theorem interrupts_all_or_nothing_retried :
    ∃ trace last kept traceKept lastKept,
      follow (CompressorMethod.call StoredCodec.compressor)
          [.initializeObject (.hash (StoredCodec.options .linux64 9 false)),
            .write (.string (.ofBytes [7])), .write (.string (.ofBytes [7])),
            .write (.string (.ofBytes [7])), .readResult]
          (World.start _ _ { Environment.calm with deliveries := [.before, .after] }).allocate =
        some (trace, last) ∧
      (trace.map fun step => step.effect.seen?) = [some .nil, some (.raised .interrupt),
        some (.raised .interrupt), some (.progress 1 false),
        some (.result [0x1f, 0x9d, 0x90, 7, 7])] ∧
      follow (CompressorMethod.call StoredCodec.compressor) kept
        (World.start _ .linux64 .calm).allocate = some (traceKept, lastKept) ∧
      ∃ contents, last.Holds contents ∧ lastKept.Holds contents.keepLock := by
  have shown : (follow (CompressorMethod.call StoredCodec.compressor)
      [.initializeObject (.hash (StoredCodec.options .linux64 9 false)),
        .write (.string (.ofBytes [7])), .write (.string (.ofBytes [7])),
        .write (.string (.ofBytes [7])), .readResult]
      (World.start _ _ { Environment.calm with deliveries := [.before, .after] }).allocate).map
        (fun run => run.1.map fun step => step.effect.seen?) =
      some [some .nil, some (.raised .interrupt), some (.raised .interrupt),
        some (.progress 1 false), some (.result [0x1f, 0x9d, 0x90, 7, 7])] := by
    decide +kernel
  obtain ⟨trace, last, kept, traceKept, lastKept, followed, followedKept, _, holds⟩ :=
    (interrupts_all_or_nothing StoredCodec.compressor StoredCodec.decompressor .linux64).1
      [.initializeObject (.hash (StoredCodec.options .linux64 9 false)),
        .write (.string (.ofBytes [7])), .write (.string (.ofBytes [7])),
        .write (.string (.ofBytes [7])), .readResult]
      { Environment.calm with deliveries := [.before, .after] } Environment.calm_quiet
  rw [followed] at shown
  exact ⟨trace, last, kept, traceKept, lastKept, followed, Option.some.inj shown, followedKept,
    holds⟩

end RubyLzws.Results.LockOption
