import RubyLzws.Ext.ProcessMemory
import RubyLzws.Ext.StoredCodec

/-!
# Threads that share stream objects

No method takes a lock of its own, so that a codec that runs without the lock of the
virtual machine is safe only while no other thread touches its object.  As long as the
callers see to that, threads do not disturb each other at all; and a `close` at the
wrong time is enough to let the codec run on freed memory.
-/

namespace RubyLzws.Results.ThreadSafety

open Ext Library.Transducer Library.Interleaving

variable {ι θ σ τ : Type} [DecidableEq ι] [DecidableEq θ]

/-- The calls of threads do not disturb each other, however they were interleaved. -/
structure Undisturbed {p : Platform} {kind : ι → StreamKind}
    (classes : (kind : StreamKind) → StreamClass (kind.State σ τ) p (kind.Method p))
    (allowed : Process (StreamKind.State σ τ) (StreamKind.Method p) kind p θ →
      Event (StreamKind.Method p) kind θ → Prop)
    (trace : List (Ended (StreamKind.Method p) kind))
    (process : Process (StreamKind.State σ τ) (StreamKind.Method p) kind p θ) : Prop where
  /-- Nothing that is allowed to happen next is undefined. -/
  defined : ∀ event, allowed process event → process.step classes event ≠ some .undefined
  /-- The calls on an object ended as they do on one that no other thread knows. -/
  serial : ∀ object, (outputs object trace).map some =
    solo (classes (kind object)).call (inputs object trace) (World.start _ p .calm).allocate

section Run

variable {p : Platform} {kind : ι → StreamKind}
  {classes : (kind : StreamKind) → StreamClass (kind.State σ τ) p (kind.Method p)}
  {allowed : Process (StreamKind.State σ τ) (StreamKind.Method p) kind p θ →
    Event (StreamKind.Method p) kind θ → Prop}
  {trace : List (Ended (StreamKind.Method p) kind)}
  {process : Process (StreamKind.State σ τ) (StreamKind.Method p) kind p θ}

theorem undisturbed_of_serial {contents : (object : ι) → Contents ((kind object).State σ τ)}
    (serial : Serial (answers classes kind) (fun _ => none) trace contents)
    (inv : Invariant classes process contents)
    (exclusive : ∀ event, allowed process event → Exclusive process event) :
    Undisturbed classes allowed trace process := by
  constructor
  · intro event allows undefined
    obtain ⟨_, _, _, impossible, _⟩ := inv.step (exclusive event allows) undefined
    cases impossible
  · intro object
    rw [solo_eq classes object _ (World.allocate_holds _), serial.alone object]

end Run

/--
**Threads that keep off each other's objects do not disturb each other.**  Any number of
threads call methods of any number of compressors and decompressors, which share one
memory; where no method is called on an object whose codec runs, no call is undefined,
and every object answers as if it were used by one thread only.
-/
theorem exclusive_threads_undisturbed (compressor : CompressorCodec σ)
    (decompressor : DecompressorCodec τ) (p : Platform) (kind : ι → StreamKind)
    {trace : List (Ended (StreamKind.Method p) kind)}
    {process : Process (StreamKind.State σ τ) (StreamKind.Method p) kind p θ}
    (runs : Runs (streamClasses compressor decompressor p) Exclusive trace process) :
    Undisturbed (streamClasses compressor decompressor p) Exclusive trace process := by
  obtain ⟨contents, serial, inv, _⟩ := runs.serial (fun _ _ => True) trivial
    fun _ _ _ _ _ exclusive => ⟨exclusive, fun _ _ _ _ => trivial⟩
  exact undisturbed_of_serial serial inv fun _ exclusive => exclusive

/-- Both classes, with a codec that stores what it is given. -/
abbrev storedClasses :=
  streamClasses StoredCodec.compressor StoredCodec.decompressor .linux64

/-- A compressor, a decompressor and two threads. -/
abbrev StoredProcess :=
  Process (StreamKind.State StoredCodec.Compressing StoredCodec.Decompressing)
    (StreamKind.Method .linux64) id .linux64 Bool

/-- What can happen to them. -/
abbrev StoredEvent := Event (StreamKind.Method .linux64) (id : StreamKind → StreamKind) Bool

/-- No object yet. -/
def storedStart : StoredProcess := .start _ _ id .linux64 Bool

/-- A thread opens a compressor. -/
def openCompressor (thread : Bool) (capacity : Int) (gvl : Bool) : StoredEvent :=
  .enter thread .compressor
    (CompressorMethod.initializeObject (.hash (StoredCodec.options .linux64 capacity gvl))) .calm

/-- A thread writes to it. -/
def writeCompressor (thread : Bool) (source : RString .linux64) : StoredEvent :=
  .enter thread .compressor (CompressorMethod.write (.string source)) .calm

/-- Two threads whose codecs run at the same time, and end in the other order. -/
theorem exclusive_threads_undisturbed_both_codecs_running :
    ∃ (trace : _) (process : StoredProcess), Runs storedClasses Exclusive trace process ∧
      outputs .compressor trace = [.nil, .progress 1 false] ∧
      outputs .decompressor trace = [.nil, .progress 3 false] ∧
      Undisturbed storedClasses Exclusive trace process := by
  have found : (storedStart.follow storedClasses Exclusive
      [.allocate .compressor, .allocate .decompressor, openCompressor false 4 false,
        .enter true .decompressor (DecompressorMethod.initializeObject
          (.hash (StoredCodec.options .linux64 4 false))) .calm,
        writeCompressor false (.ofBytes [1]),
        .enter true .decompressor (DecompressorMethod.read
          (.string (.ofBytes [0x1f, 0x9d, 0x90]))) .calm,
        .commit true, .commit false]).map (fun result =>
          (outputs .compressor result.1, outputs .decompressor result.1)) =
      some ([.nil, .progress 1 false], [.nil, .progress 3 false]) := by
    decide +kernel
  obtain ⟨⟨trace, process⟩, followed, answered⟩ := Option.map_eq_some_iff.mp found
  obtain ⟨compressed, decompressed⟩ := Prod.mk.inj answered
  have runs := Runs.start.of_follow followed
  exact ⟨trace, process, runs, compressed, decompressed,
    exclusive_threads_undisturbed StoredCodec.compressor StoredCodec.decompressor .linux64 id runs⟩

/--
**The rule is needed.**  While one thread has released the lock for its codec, a `close` of
another thread returns; after that the codec is handed a state that is gone.  Only an
interrupt that is delivered before the codec starts prevents it.
-/
theorem close_during_call_undefined (compressor : CompressorCodec σ)
    (decompressor : DecompressorCodec τ) (p : Platform) (kind : ι → StreamKind)
    {trace : List (Ended (StreamKind.Method p) kind)}
    {process : Process (StreamKind.State σ τ) (StreamKind.Method p) kind p θ}
    (runs : Runs (streamClasses compressor decompressor p) Exclusive trace process)
    {thread other : θ} {flight : Flight (StreamKind.State σ τ) (StreamKind.Method p) kind p}
    (found : process.flights thread = some flight) (free : process.flights other = none)
    (delivered : flight.environment.nextDelivery.1 ≠ .before) (env : Environment) :
    ∃ next, process.step (streamClasses compressor decompressor p)
        (.enter other flight.object ((kind flight.object).close p) env) =
          some (.moved next (some ⟨flight.object, ((kind flight.object).close p, env), .nil⟩)) ∧
      next.step (streamClasses compressor decompressor p) (.commit thread) = some .undefined := by
  obtain ⟨contents, _, inv, _⟩ := runs.serial (fun _ _ => True) trivial
    fun _ _ _ _ _ exclusive => ⟨exclusive, fun _ _ _ _ => trivial⟩
  obtain ⟨stream, slot, _, suspended⟩ := inv.flights found
  have holds := inv.used slot
  obtain ⟨channel, held, _⟩ := suspended.exists_channel holds
  rw [held] at holds
  obtain ⟨_, stateHandle, bufferHandle, block, opened⟩ := holds
  cases opened.object
  have seen : (process.view flight.object env).object = some stream := by
    rw [Process.view, slot]
    rfl
  rw [← seen] at opened
  obtain ⟨states, buffers, _, _, closed⟩ := closeStream_eq opened
  refine ⟨process.put flight.object
    (.used { stream with statePtr := none, destinationBuffer := none }) states buffers, ?_, ?_⟩
  · simp only [Process.step, free, slot, enter_close, closed]
    rfl
  · simp only [Process.step, Process.put, found]
    rw [suspended.undefined_of_closed ?_ delivered]
    · rfl
    · simp only [Process.view, Function.update_self]
      rfl

/-- A `close` while the codec of a `write` runs. -/
theorem close_during_call_undefined_write :
    ∃ (trace : _) (process next : StoredProcess) (flight : _),
      Runs storedClasses Exclusive trace process ∧ process.flights false = some flight ∧
      process.step storedClasses (.enter true flight.object (flight.object.close .linux64) .calm) =
        some (.moved next (some ⟨flight.object, (flight.object.close .linux64, .calm), .nil⟩)) ∧
      next.step storedClasses (.commit false) = some .undefined := by
  have found : (storedStart.follow storedClasses Exclusive
      [.allocate .compressor, openCompressor false 4 false,
        writeCompressor false (.ofBytes [1])]).map
          (fun result => ((result.2.flights false).map fun flight =>
            flight.environment.nextDelivery.1, (result.2.flights true).isNone)) =
      some (some .nothing, true) := by
    decide +kernel
  obtain ⟨⟨trace, process⟩, followed, answered⟩ := Option.map_eq_some_iff.mp found
  obtain ⟨flying, free⟩ := Prod.mk.inj answered
  obtain ⟨flight, held, delivery⟩ := Option.map_eq_some_iff.mp flying
  have runs := Runs.start.of_follow followed
  obtain ⟨next, closed, undefined⟩ := close_during_call_undefined StoredCodec.compressor
    StoredCodec.decompressor .linux64 id runs held (Option.isNone_iff_eq_none.mp free)
    (by rw [delivery]; decide) .calm
  exact ⟨trace, process, next, flight, runs, held, closed, undefined⟩

/--
**Threads do not disturb each other where the lock is kept.**  If every `initialize`
asks for the lock, or the platform cannot release it, the threads need no rule at all:
no call is interleaved with another, and none is undefined.
-/
theorem locked_threads_undisturbed (compressor : CompressorCodec σ)
    (decompressor : DecompressorCodec τ) (p : Platform) (kind : ι → StreamKind)
    {trace : List (Ended (StreamKind.Method p) kind)}
    {process : Process (StreamKind.State σ τ) (StreamKind.Method p) kind p θ}
    (runs : Runs (streamClasses compressor decompressor p)
      (fun _ event => event.Calls (streamKeepsLock compressor decompressor p)) trace process) :
    (∀ thread, process.flights thread = none) ∧
      Undisturbed (streamClasses compressor decompressor p)
        (fun _ event => event.Calls (streamKeepsLock compressor decompressor p)) trace process := by
  obtain ⟨contents, serial, inv, grounded⟩ := runs.serial Grounded
    ⟨fun _ => rfl, fun _ => .none⟩ fun _ _ event _ grounded calls =>
      ⟨grounded.exclusive event, fun _ _ _ advances =>
        grounded.step (streamKeepsLock_observe compressor decompressor) calls advances⟩
  exact ⟨grounded.flights, undisturbed_of_serial serial inv fun event _ => grounded.exclusive event⟩

/-- Every `initialize` asks for the lock. -/
abbrev LockedEvent (_ : StoredProcess) (event : StoredEvent) : Prop :=
  event.Calls (streamKeepsLock StoredCodec.compressor StoredCodec.decompressor .linux64)

/-- Two threads that use one compressor without any rule, and close it twice. -/
theorem locked_threads_undisturbed_shared_object :
    ∃ trace process, Runs storedClasses LockedEvent trace process ∧
      outputs .compressor trace = [.nil, .progress 1 false, .progress 1 false, .nil,
        .raised (lzwsExtRaiseError .usedAfterClose)] ∧
      Undisturbed storedClasses LockedEvent trace process := by
  have found : (storedStart.follow storedClasses LockedEvent
      [.allocate .compressor, openCompressor false 8 true, writeCompressor true (.ofBytes [1]),
        writeCompressor false (.ofBytes [2]), .enter true .compressor CompressorMethod.close .calm,
        .enter false .compressor CompressorMethod.close .calm]).map
          (fun result => outputs StreamKind.compressor result.1) =
      some [.nil, .progress 1 false, .progress 1 false, .nil,
        .raised (lzwsExtRaiseError .usedAfterClose)] := by
    decide +kernel
  obtain ⟨⟨trace, process⟩, followed, answered⟩ := Option.map_eq_some_iff.mp found
  have runs := Runs.start.of_follow followed
  exact ⟨trace, process, runs, answered, (locked_threads_undisturbed StoredCodec.compressor
    StoredCodec.decompressor .linux64 id runs).2⟩

/--
**Threads leak nothing, as long as no open object is initialised again.**  In every
process that keeps both rules, a codec state or a destination buffer is live just if
exactly one object stores it; when all objects are closed or collected, nothing is live.
-/
theorem threads_own_all_memory (compressor : CompressorCodec σ) (decompressor : DecompressorCodec τ)
    (p : Platform) (kind : ι → StreamKind) {trace : List (Ended (StreamKind.Method p) kind)}
    {process : Process (StreamKind.State σ τ) (StreamKind.Method p) kind p θ}
    (runs : Runs (streamClasses compressor decompressor p)
      (fun process event => Exclusive process event ∧
        OpensOnce (streamClasses compressor decompressor p) process event) trace process) :
    (∀ class_ handle, (process.states class_).Live handle ↔
      ∃! object, kind object = class_ ∧ process.StoresState object handle) ∧
    ∀ handle, process.buffers.Live handle ↔ ∃! object, process.StoresBuffer object handle := by
  obtain ⟨contents, _, inv, ledger⟩ := runs.serial (fun process _ => Ledger process) .start
    fun _ _ _ inv ledger allows =>
      ⟨allows.1, fun _ _ _ advances => ledger.step inv allows.2 advances⟩
  constructor
  · intro class_ handle
    constructor
    · intro live
      obtain ⟨object, rfl, stores⟩ := ledger.states class_ handle live
      exact ⟨object, ⟨rfl, stores⟩, fun other owns =>
        (inv.stores_state stores).2 other owns.1 owns.2⟩
    · rintro ⟨object, ⟨rfl, stores⟩, _⟩
      exact (inv.stores_state stores).1
  · intro handle
    constructor
    · intro live
      obtain ⟨object, stores⟩ := ledger.buffers handle live
      exact ⟨object, stores, (inv.stores_buffer stores).2⟩
    · rintro ⟨object, stores, _⟩
      exact (inv.stores_buffer stores).1

/-- Both rules are kept. -/
abbrev TidyEvent (process : StoredProcess) (event : StoredEvent) : Prop :=
  Exclusive process event ∧ OpensOnce storedClasses process event

/-- A compressor whose first `initialize` fails is opened, closed, opened again and collected. -/
theorem threads_own_all_memory_reopened :
    ∃ (trace : _) (process : StoredProcess), Runs storedClasses TidyEvent trace process ∧
      outputs StreamKind.compressor trace =
        [.raised (lzwsExtRaiseError .allocateFailed), .nil, .nil, .nil] ∧
      (∀ class_ handle, (process.states class_).Live handle ↔
        ∃! object, id object = class_ ∧ process.StoresState object handle) ∧
      ∀ handle, process.buffers.Live handle ↔ ∃! object, process.StoresBuffer object handle := by
  have found : (storedStart.follow storedClasses TidyEvent
      [.allocate .compressor, .allocate .decompressor,
        .enter true .compressor (CompressorMethod.initializeObject
          (.hash (StoredCodec.options .linux64 2 false)))
            { Environment.calm with nativeFailures := [false, true] },
        openCompressor false 2 false, .enter true .compressor CompressorMethod.close .calm,
        openCompressor false 3 true, .collect .compressor]).map
          (fun result => outputs StreamKind.compressor result.1) =
      some [.raised (lzwsExtRaiseError .allocateFailed), .nil, .nil, .nil] := by
    decide +kernel
  obtain ⟨⟨trace, process⟩, followed, answered⟩ := Option.map_eq_some_iff.mp found
  have runs := Runs.start.of_follow followed
  exact ⟨trace, process, runs, answered, threads_own_all_memory StoredCodec.compressor
    StoredCodec.decompressor .linux64 id runs⟩

end RubyLzws.Results.ThreadSafety
