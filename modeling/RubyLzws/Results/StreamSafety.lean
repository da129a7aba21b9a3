import RubyLzws.Ext.StoredCodec
import RubyLzws.Ext.Stream.Compressor
import RubyLzws.Ext.Stream.Decompressor

/-!
# Memory safety over the life of a stream object

From allocation on, whatever methods are called in whatever order and however
they end, the stored handles are both NULL or both live, so that no method and
no release is ever given a pointer it must not use.
-/

namespace RubyLzws.Results.StreamSafety

open Ext Library

variable {σ τ : Type} {p : Platform} {μ : Type}

/-- What memory safety asks of a world that the life of an object has reached. -/
structure MemorySafe (call : μ → World σ p → Effect σ p) (IsInitialize : μ → Prop)
    (world : World σ p) : Prop where
  handles : ∃ stream, world.object = some stream ∧
    (stream.statePtr = none ↔ stream.destinationBuffer = none) ∧
    (∀ handle, stream.statePtr = some handle → world.states.Live handle) ∧
    (∀ handle, stream.destinationBuffer = some handle → world.buffers.Live handle)
  /-- No method is given a NULL, stale or freed pointer, or leaves its buffer. -/
  defined : ∀ method, call method world ≠ .undefined
  /-- Neither is the free function of the garbage collector. -/
  freed : freeStream world ≠ none
  closed : (∀ stream, world.object = some stream → stream.statePtr = none) →
    ∀ method, ¬ IsInitialize method →
      call method world = .raised (lzwsExtRaiseError .usedAfterClose) world
  initialized : ∀ method, IsInitialize method → ∀ exception after,
    call method world = .raised exception after → after.object = world.object

theorem closes_of_null {world : World σ p} (sound : world.Sound)
    (null : ∀ stream, world.object = some stream → stream.statePtr = none) : world.Closes := by
  rcases sound with ⟨channel, stream, stateHandle, _, _, opened⟩ | closes
  · have absent := null stream opened.object
    rw [opened.statePtr] at absent
    cases absent
  · exact closes

/-- The handles of a sound world are both NULL or both live. -/
theorem handles_of_sound {world : World σ p} (sound : world.Sound) :
    ∃ stream, world.object = some stream ∧
      (stream.statePtr = none ↔ stream.destinationBuffer = none) ∧
      (∀ handle, stream.statePtr = some handle → world.states.Live handle) ∧
      (∀ handle, stream.destinationBuffer = some handle → world.buffers.Live handle) := by
  rcases sound with ⟨channel, stream, stateHandle, bufferHandle, contents, opened⟩ | closes
  · refine ⟨stream, opened.object, ?_, ?_, ?_⟩
    · simp [opened.statePtr, opened.destinationBuffer]
    · intro handle stored
      rw [opened.statePtr] at stored
      cases stored
      exact Arena.live_of_cell opened.state
    · intro handle stored
      rw [opened.destinationBuffer] at stored
      cases stored
      exact Arena.live_of_cell opened.block
  · obtain ⟨stream, object, statePtr, destinationBuffer⟩ := closes
    refine ⟨stream, object, ?_, ?_, ?_⟩
    · simp [statePtr, destinationBuffer]
    · intro handle stored
      rw [statePtr] at stored
      cases stored
    · intro handle stored
      rw [destinationBuffer] at stored
      cases stored

/-- A reached world is safe if closed objects refuse methods and failed initialisation keeps fields. -/
theorem memorySafe_of_reaches (object : NativeClass σ p μ) (IsInitialize : μ → Prop)
    (refuses : ∀ method world, world.Closes → ¬ IsInitialize method →
      object.call method world = .raised (lzwsExtRaiseError .usedAfterClose) world)
    (keeps : ∀ method world exception after, world.Sound → IsInitialize method →
      object.call method world = .raised exception after → after.object = world.object)
    {env : Environment} {trace : List (Step σ p μ)} {world : World σ p}
    (reaches : Reaches object.call (World.start σ p env).allocate trace world) :
    MemorySafe object.call IsInitialize world := by
  have sound := object.reaches_sound reaches (.inr (World.allocate_closes _))
  constructor
  · exact handles_of_sound sound
  · intro method undefined
    obtain ⟨after, ends, _⟩ := object.step method world sound
    rw [undefined] at ends
    cases ends
  · intro undefined
    obtain ⟨after, freed⟩ := freeStream_sound sound
    rw [undefined] at freed
    cases freed
  · intro null method other
    exact refuses method world (closes_of_null sound null) other
  · intro method new exception after raised
    exact keeps method world exception after sound new raised

/-- Failed initialisation assigns no field. -/
theorem initializeStream_raised {ε ω : Type} {arguments : Except Raised (Nat × Bool × ω)}
    {initial : ω → Except ε σ} {allocateFailed : ε} {errorOf : ε → Raised}
    {create : Nat → Bool → Option Nat} {quiet : ω → Bool} {world after : World σ p}
    {exception : Raised} (sound : world.Sound)
    (raised : initializeStream arguments
      (fun options => obtainState allocateFailed (initial options)) errorOf create quiet world =
        .raised exception after) : after.object = world.object := by
  obtain ⟨stream, object⟩ := sound.exists_object
  have result : InitializeResult arguments initial create quiet world
      (initializeStream arguments (fun options => obtainState allocateFailed (initial options))
        errorOf create quiet world) := initializeStream_cases object
  rw [raised] at result
  cases result with
  | refused _ untouched => exact untouched.object

/-- `initialize` of a compressor. -/
def IsInitializeCompressor (method : CompressorMethod p) : Prop :=
  ∃ options, method = .initializeObject options

/-- `initialize` of a decompressor. -/
def IsInitializeDecompressor (method : DecompressorMethod p) : Prop :=
  ∃ options, method = .initializeObject options

theorem compressor_refuses (codec : CompressorCodec σ) (method : CompressorMethod p)
    (world : World σ p) (closes : world.Closes) (other : ¬ IsInitializeCompressor method) :
    method.call codec world = .raised (lzwsExtRaiseError .usedAfterClose) world := by
  cases method with
  | initializeObject options => exact absurd ⟨options, rfl⟩ other
  | write source => exact withStream_closed _ closes
  | finish => exact withStream_closed _ closes
  | readResult => exact withStream_closed _ closes
  | close => exact withStream_closed _ closes

theorem decompressor_refuses (codec : DecompressorCodec σ) (method : DecompressorMethod p)
    (world : World σ p) (closes : world.Closes) (other : ¬ IsInitializeDecompressor method) :
    method.call codec world = .raised (lzwsExtRaiseError .usedAfterClose) world := by
  cases method with
  | initializeObject options => exact absurd ⟨options, rfl⟩ other
  | read source => exact withStream_closed _ closes
  | readResult => exact withStream_closed _ closes
  | close => exact withStream_closed _ closes

/--
**No use after free and no double free.**  Every world that the life of a
`NativeCompressor` or of a `NativeDecompressor` reaches is memory safe.
-/
theorem native_streams_memory_safe (compressor : CompressorCodec σ)
    (decompressor : DecompressorCodec τ) (p : Platform) :
    (∀ (env : Environment) (trace : List (Step σ p (CompressorMethod p))) (world : World σ p),
      Reaches (CompressorMethod.call compressor)
          (lzwsExtAllocateCompressor (.start σ p env)) trace world →
        MemorySafe (CompressorMethod.call compressor) IsInitializeCompressor world) ∧
    (∀ (env : Environment) (trace : List (Step τ p (DecompressorMethod p))) (world : World τ p),
      Reaches (DecompressorMethod.call decompressor)
          (lzwsExtAllocateDecompressor (.start τ p env)) trace world →
        MemorySafe (DecompressorMethod.call decompressor) IsInitializeDecompressor world) := by
  constructor
  · intro env trace world reaches
    refine memorySafe_of_reaches (nativeCompressor compressor p) IsInitializeCompressor
      (compressor_refuses compressor) ?_ reaches
    rintro method world exception after sound ⟨options, rfl⟩ raised
    exact initializeStream_raised sound raised
  · intro env trace world reaches
    refine memorySafe_of_reaches (nativeDecompressor decompressor p) IsInitializeDecompressor
      (decompressor_refuses decompressor) ?_ reaches
    rintro method world exception after sound ⟨options, rfl⟩ raised
    exact initializeStream_raised sound raised

/-- A life of an object: it is opened, written to, closed, and used once more. -/
theorem native_streams_memory_safe_used_after_close :
    ∃ trace world, Reaches (CompressorMethod.call StoredCodec.compressor)
        (lzwsExtAllocateCompressor (.start _ .linux64 .calm)) trace world ∧
      (trace.map fun step => step.effect.world?.isSome) = [true, true, true, true] ∧
      MemorySafe (CompressorMethod.call StoredCodec.compressor) IsInitializeCompressor world := by
  have found : ((follow (CompressorMethod.call StoredCodec.compressor)
      [.initializeObject (.hash (StoredCodec.options .linux64 2 true)),
        .write (.string (.ofBytes [1])), .close, .readResult]
      (lzwsExtAllocateCompressor (.start _ .linux64 .calm))).map fun result =>
        result.1.map fun step => step.effect.world?.isSome) = some [true, true, true, true] := by
    decide +kernel
  obtain ⟨⟨trace, world⟩, followed, ended⟩ := Option.map_eq_some_iff.mp found
  have reaches := Reaches.of_follow followed
  exact ⟨trace, world, reaches, ended, (native_streams_memory_safe StoredCodec.compressor
    StoredCodec.decompressor .linux64).1 .calm trace world reaches⟩

end RubyLzws.Results.StreamSafety
