import RubyLzws.Ext.StoredCodec
import RubyLzws.Ext.Stream.Compressor
import RubyLzws.Ext.Stream.Decompressor

/-!
# Leaks over the life of a stream object

`initialize` has no check for an object that is open already: it overwrites the
stored handles, and nobody frees what they pointed to.  Every other step keeps
the live handles and the stored ones the same set.
-/

namespace RubyLzws.Results.StreamLeak

open Ext Library

variable {σ τ : Type} {p : Platform} {μ : Type}

/-- Only the stored handles are live. -/
structure Owned (world : World σ p) : Prop where
  states : ∀ handle, world.states.Live handle →
    ∃ buffer, world.stored = some (some handle, buffer)
  buffers : ∀ handle, world.buffers.Live handle →
    ∃ state, world.stored = some (state, some handle)

/-- Some codec state is live, but not stored. -/
def Leaks (world : World σ p) : Prop :=
  ∃ handle, world.states.Live handle ∧ ∀ buffer, world.stored ≠ some (some handle, buffer)

/-- The object is open before the step, and the step is an `initialize` that succeeds. -/
def Reopens (Opening : μ → World σ p → Prop) (step : Step σ p μ) : Prop :=
  (∃ stream, step.before.object = some stream ∧ stream.statePtr ≠ none) ∧
    Opening step.method step.before

/-- Everything the codec allocated has been freed. -/
def AllFreed (world : World σ p) : Prop :=
  (∀ handle, ¬ world.states.Live handle) ∧ ∀ handle, ¬ world.buffers.Live handle

theorem Owned.not_leaks {world : World σ p} (owned : Owned world) : ¬ Leaks world := by
  rintro ⟨handle, live, notStored⟩
  obtain ⟨buffer, stored⟩ := owned.states handle live
  exact notStored buffer stored

/-! ## Open and closed objects -/

theorem stored_of_opens {world : World σ p} {channel : Channel σ} (opens : world.Opens channel) :
    ∃ stateHandle bufferHandle, world.stored = some (some stateHandle, some bufferHandle) ∧
      world.states.Live stateHandle := by
  obtain ⟨stream, stateHandle, bufferHandle, contents, opened⟩ := opens
  refine ⟨stateHandle, bufferHandle, ?_, Arena.live_of_cell opened.state⟩
  simp [World.stored, opened.object, opened.statePtr, opened.destinationBuffer]

theorem stored_of_closes {world : World σ p} (closes : world.Closes) :
    world.stored = some (none, none) := by
  obtain ⟨stream, object, statePtr, destinationBuffer⟩ := closes
  simp [World.stored, object, statePtr, destinationBuffer]

/-- An owned closed object has no live handle left. -/
theorem Owned.allFreed {world : World σ p} (owned : Owned world) (closes : world.Closes) :
    AllFreed world := by
  have nothing := stored_of_closes closes
  constructor
  · intro handle live
    obtain ⟨buffer, stored⟩ := owned.states handle live
    rw [nothing] at stored
    cases stored
  · intro handle live
    obtain ⟨state, stored⟩ := owned.buffers handle live
    rw [nothing] at stored
    cases stored

/-- Before anything is allocated by the codec, nothing is live. -/
theorem owned_allocate (env : Environment) : Owned (World.start σ p env).allocate := by
  constructor
  · exact fun handle live => absurd live (Arena.not_live_empty handle)
  · exact fun handle live => absurd live (Arena.not_live_empty handle)

/-! ## One step -/

section Step

variable {opening : Prop} {before after : World σ p}

/-- A step keeps the live handles the stored ones, unless it reopens the object. -/
theorem owned_step (owned : Owned before) (step : LifeStep opening before after)
    (once : opening → before.Closes) : Owned after := by
  cases step with
  | kept still keptSound handles =>
      constructor
      · intro handle live
        rw [handles.stored]
        exact owned.states handle ((handles.states handle).mp live)
      · intro handle live
        rw [handles.stored]
        exact owned.buffers handle ((handles.buffers handle).mp live)
  | opened new opened =>
      obtain ⟨noStates, noBuffers⟩ := owned.allFreed (once new)
      constructor
      · intro handle live
        rcases (opened.states handle).mp live with rfl | old
        · exact ⟨_, opened.stored⟩
        · exact absurd old (noStates handle)
      · intro handle live
        rcases (opened.buffers handle).mp live with rfl | old
        · exact ⟨_, opened.stored⟩
        · exact absurd old (noBuffers handle)
  | closed still closes released =>
      constructor
      · intro handle live
        obtain ⟨different, old⟩ := (released.states handle).mp live
        obtain ⟨buffer, stored⟩ := owned.states handle old
        rw [released.stored] at stored
        cases stored
        exact absurd rfl different
      · intro handle live
        obtain ⟨different, old⟩ := (released.buffers handle).mp live
        obtain ⟨state, stored⟩ := owned.buffers handle old
        rw [released.stored] at stored
        cases stored
        exact absurd rfl different

/-- Reopening an open object leaves the overwritten state live. -/
theorem leaks_of_reopen {channel : Channel σ} (opens : before.Opens channel) (new : opening)
    (step : LifeStep opening before after) : Leaks after := by
  cases step with
  | kept still _ _ => exact absurd new still
  | closed still _ _ => exact absurd new still
  | opened _ opened =>
      obtain ⟨stateHandle, bufferHandle, stored, live⟩ := stored_of_opens opens
      refine ⟨stateHandle, (opened.states _).mpr (.inr live), ?_⟩
      intro buffer other
      rw [opened.stored] at other
      cases other
      exact opened.stateFresh live

/-- A lost handle stays lost. -/
theorem leaks_step (leaks : Leaks before) (step : LifeStep opening before after) :
    Leaks after := by
  obtain ⟨handle, live, notStored⟩ := leaks
  cases step with
  | kept still sound handles =>
      refine ⟨handle, (handles.states handle).mpr live, ?_⟩
      rw [handles.stored]
      exact notStored
  | opened new opened =>
      refine ⟨handle, (opened.states handle).mpr (.inr live), ?_⟩
      intro buffer other
      rw [opened.stored] at other
      cases other
      exact opened.stateFresh live
  | @closed stateHandle bufferHandle still closes released =>
      have different : handle ≠ stateHandle := by
        rintro rfl
        exact notStored _ released.stored
      refine ⟨handle, (released.states handle).mpr ⟨different, live⟩, ?_⟩
      rw [stored_of_closes closes]
      intro buffer impossible
      cases impossible

end Step

/-! ## Whole lives -/

/-- A reached world is owned, or it leaks because some step reopened the object. -/
theorem owned_or_leaks (object : NativeClass σ p μ) {env : Environment}
    {trace : List (Step σ p μ)} {world : World σ p}
    (reaches : Reaches object.call (World.start σ p env).allocate trace world) :
    (Owned world ∧ ∀ step ∈ trace, ¬ Reopens object.Opening step) ∨
      (Leaks world ∧ ∃ step ∈ trace, Reopens object.Opening step) := by
  induction reaches with
  | start => exact .inl ⟨owned_allocate env, by simp⟩
  | @step trace world after method before ends ih =>
      have sound := object.reaches_sound before (.inr (World.allocate_closes _))
      obtain ⟨reached, same, step⟩ := object.step method world sound
      rw [ends] at same
      cases same
      rcases ih with ⟨owned, once⟩ | ⟨leaks, reopening, member, reopens⟩
      · by_cases again : Reopens object.Opening ⟨world, method, object.call method world⟩
        · obtain ⟨⟨stream, objectEq, notNull⟩, new⟩ := again
          rcases sound with ⟨channel, opens⟩ | ⟨other, otherEq, null, _⟩
          · exact .inr ⟨leaks_of_reopen opens new step, _, by simp,
              ⟨stream, objectEq, notNull⟩, new⟩
          · rw [otherEq] at objectEq
            cases objectEq
            exact absurd null notNull
        · refine .inl ⟨owned_step owned step ?_, ?_⟩
          · intro new
            rcases sound with ⟨channel, stream, stateHandle, _, _, opened⟩ | closes
            · refine absurd ⟨⟨stream, opened.object, ?_⟩, new⟩ again
              simp [opened.statePtr]
            · exact closes
          · intro earlier member
            rcases List.mem_append.mp member with old | last
            · exact once earlier old
            · rw [List.mem_singleton.mp last]
              exact again
      · exact .inr ⟨leaks_step leaks step, reopening, List.mem_append_left _ member, reopens⟩

/-- What the free function leaves of an owned world, and of one that leaks. -/
theorem freeStream_leaves {world : World σ p} (sound : world.Sound) :
    ∃ final, freeStream world = some final ∧ (Owned world → AllFreed final) ∧
      (Leaks world → ¬ AllFreed final) := by
  rcases sound with ⟨channel, opens⟩ | closes
  · obtain ⟨stateHandle, bufferHandle, final, freed, released⟩ := freeStream_open opens
    refine ⟨final, freed, ?_, ?_⟩
    · intro owned
      constructor
      · intro handle live
        obtain ⟨different, old⟩ := (released.states handle).mp live
        obtain ⟨buffer, stored⟩ := owned.states handle old
        rw [released.stored] at stored
        cases stored
        exact different rfl
      · intro handle live
        obtain ⟨different, old⟩ := (released.buffers handle).mp live
        obtain ⟨state, stored⟩ := owned.buffers handle old
        rw [released.stored] at stored
        cases stored
        exact different rfl
    · rintro ⟨handle, live, notStored⟩ ⟨allFreed, _⟩
      have different : handle ≠ stateHandle := by
        rintro rfl
        exact notStored _ released.stored
      exact allFreed handle ((released.states handle).mpr ⟨different, live⟩)
  · obtain ⟨final, freed, states, buffers⟩ := freeStream_closed closes
    refine ⟨final, freed, ?_, ?_⟩
    · intro owned
      rw [AllFreed, states, buffers]
      exact owned.allFreed closes
    · rintro ⟨handle, live, _⟩ ⟨allFreed, _⟩
      rw [states] at allFreed
      exact allFreed handle live

/-- The law for one class of objects. -/
theorem freed_iff (object : NativeClass σ p μ) {env : Environment}
    {trace : List (Step σ p μ)} {world : World σ p}
    (reaches : Reaches object.call (World.start σ p env).allocate trace world) :
    (Owned world ↔ ∀ step ∈ trace, ¬ Reopens object.Opening step) ∧
      ∃ final, freeStream world = some final ∧
        (AllFreed final ↔ ∀ step ∈ trace, ¬ Reopens object.Opening step) := by
  have sound := object.reaches_sound reaches (.inr (World.allocate_closes _))
  obtain ⟨final, freed, ofOwned, ofLeaks⟩ := freeStream_leaves sound
  rcases owned_or_leaks object reaches with ⟨owned, once⟩ | ⟨leaks, step, member, reopens⟩
  · exact ⟨iff_of_true owned once, final, freed, iff_of_true (ofOwned owned) once⟩
  · have again : ¬ ∀ step ∈ trace, ¬ Reopens object.Opening step := fun once =>
      once step member reopens
    exact ⟨iff_of_false (fun owned => owned.not_leaks leaks) again, final, freed,
      iff_of_false (ofLeaks leaks) again⟩

/--
**What a life leaks.**  The garbage collector finds every codec state and buffer
freed, and at every moment only the stored handles were live, just if no
`initialize` succeeded on an object that was open.
-/
theorem native_streams_freed_iff_never_reopened (compressor : CompressorCodec σ)
    (decompressor : DecompressorCodec τ) (p : Platform) :
    (∀ (env : Environment) (trace : List (Step σ p (CompressorMethod p))) (world : World σ p),
      Reaches (CompressorMethod.call compressor)
          (lzwsExtAllocateCompressor (.start σ p env)) trace world →
        (Owned world ↔ ∀ step ∈ trace, ¬ Reopens (CompressorMethod.Opening compressor) step) ∧
          ∃ final, freeCompressor world = some final ∧ (AllFreed final ↔
            ∀ step ∈ trace, ¬ Reopens (CompressorMethod.Opening compressor) step)) ∧
    (∀ (env : Environment) (trace : List (Step τ p (DecompressorMethod p))) (world : World τ p),
      Reaches (DecompressorMethod.call decompressor)
          (lzwsExtAllocateDecompressor (.start τ p env)) trace world →
        (Owned world ↔ ∀ step ∈ trace, ¬ Reopens (DecompressorMethod.Opening decompressor) step) ∧
          ∃ final, freeDecompressor world = some final ∧ (AllFreed final ↔
            ∀ step ∈ trace, ¬ Reopens (DecompressorMethod.Opening decompressor) step)) := by
  constructor
  · intro env trace world reaches
    exact freed_iff (nativeCompressor compressor p) reaches
  · intro env trace world reaches
    exact freed_iff (nativeDecompressor decompressor p) reaches

/-- A life of one `initialize`, a write and a `close`. -/
theorem native_streams_freed_iff_never_reopened_once :
    ∃ trace world, Reaches (CompressorMethod.call StoredCodec.compressor)
        (lzwsExtAllocateCompressor (.start _ .linux64 .calm)) trace world ∧
      trace.length = 3 ∧
      (Owned world ↔
        ∀ step ∈ trace, ¬ Reopens (CompressorMethod.Opening StoredCodec.compressor) step) := by
  have found : ((follow (CompressorMethod.call StoredCodec.compressor)
      [.initializeObject (.hash (StoredCodec.options .linux64 2 true)),
        .write (.string (.ofBytes [1])), .close]
      (lzwsExtAllocateCompressor (.start _ .linux64 .calm))).map fun result =>
        result.1.length) = some 3 := by
    decide +kernel
  obtain ⟨⟨trace, world⟩, followed, ended⟩ := Option.map_eq_some_iff.mp found
  have reaches := Reaches.of_follow followed
  exact ⟨trace, world, reaches, ended, ((native_streams_freed_iff_never_reopened
    StoredCodec.compressor StoredCodec.decompressor .linux64).1 .calm trace world reaches).1⟩

/-- Two successful calls of `initialize`: the first state and the first buffer are never freed. -/
theorem reopened_compressor_leaks :
    ∃ trace world final,
      follow (CompressorMethod.call StoredCodec.compressor)
        [.initializeObject (.hash (StoredCodec.options .linux64 2 true)),
          .initializeObject (.hash (StoredCodec.options .linux64 2 true))]
        (lzwsExtAllocateCompressor (.start _ .linux64 .calm)) = some (trace, world) ∧
      freeCompressor world = some final ∧ ¬ AllFreed final := by
  have found : ((follow (CompressorMethod.call StoredCodec.compressor)
      [.initializeObject (.hash (StoredCodec.options .linux64 2 true)),
        .initializeObject (.hash (StoredCodec.options .linux64 2 true))]
      (lzwsExtAllocateCompressor (.start _ .linux64 .calm))).bind fun result =>
        (freeCompressor result.2).map fun final => decide (final.states.Live 0)) = some true := by
    decide +kernel
  obtain ⟨⟨trace, world⟩, followed, ended⟩ := Option.bind_eq_some_iff.mp found
  obtain ⟨final, freed, live⟩ := Option.map_eq_some_iff.mp ended
  exact ⟨trace, world, final, followed, freed,
    fun allFreed => allFreed.1 0 (of_decide_eq_true live)⟩

end RubyLzws.Results.StreamLeak
