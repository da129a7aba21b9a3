import RubyLzws.Ext.StreamChannel

/-!
# The life of a stream object

Where a channel comes from and where it ends: `initialize` assigns every field or
none, `close` and the free function release what the struct stores.  From the
inversion of each method follows what one step of an object's life can do to the
handles it owns, and from that what a whole life can do.
-/

namespace RubyLzws.Ext

open Library Library.Transducer

variable {σ ε ω : Type} {p : Platform}

/-! ## Initialize -/

/-- What a method that changed no field and no live cell left alone. -/
structure Untouched (before after : World σ p) : Prop where
  object : after.object = before.object
  states : after.states.cell = before.states.cell
  buffers : after.buffers.cell = before.buffers.cell
  calls : after.calls = before.calls
  later : before.environment.Later after.environment

theorem Untouched.handles {before after : World σ p} (untouched : Untouched before after) :
    SameHandles before after := by
  constructor
  · intro handle
    simp [Arena.Live, untouched.states]
  · intro handle
    simp [Arena.Live, untouched.buffers]
  · simp [World.stored, untouched.object]

theorem Untouched.opens {before after : World σ p} {channel : Channel σ}
    (untouched : Untouched before after) (opens : before.Opens channel) : after.Opens channel := by
  obtain ⟨stream, stateHandle, bufferHandle, contents, opened⟩ := opens
  refine ⟨stream, stateHandle, bufferHandle, contents, ?_⟩
  exact { opened with
    object := untouched.object.trans opened.object
    state := by rw [untouched.states, opened.state]
    block := by rw [untouched.buffers, opened.block] }

theorem Untouched.closes {before after : World σ p} (untouched : Untouched before after)
    (closes : before.Closes) : after.Closes := by
  obtain ⟨stream, object, nulls⟩ := closes
  exact ⟨stream, untouched.object.trans object, nulls⟩

/-- What a successful `initialize` did; the handles it stores are new. -/
structure Opened (before : World σ p) (channel : Channel σ) (stateHandle bufferHandle : Nat)
    (after : World σ p) : Prop where
  opens : after.Opens channel
  stored : after.stored = some (some stateHandle, some bufferHandle)
  stateFresh : ¬ before.states.Live stateHandle
  bufferFresh : ¬ before.buffers.Live bufferHandle
  states : ∀ handle, after.states.Live handle ↔ handle = stateHandle ∨ before.states.Live handle
  buffers : ∀ handle,
    after.buffers.Live handle ↔ handle = bufferHandle ∨ before.buffers.Live handle
  calls : after.calls = before.calls
  later : before.environment.Later after.environment

/-- Memory suffices for a destination buffer, and the library makes one of `made` bytes. -/
def BufferSucceeds (p : Platform) (create : Nat → Bool → Option Nat) (length : Nat) (quiet : Bool)
    (env : Environment) : Prop :=
  env.nextNativeFailure.1 = false ∧
    ∃ made, create length quiet = some made ∧ made ≤ p.maxStringLength

/-- The ways in which the creation of a destination buffer can go. -/
inductive Created (create : Nat → Bool → Option Nat) (length : Nat) (quiet : Bool)
    (before : World σ p) : Option Nat × World σ p → Prop where
  | failed {env : Environment} (later : before.environment.Later env)
      (fails : ¬ BufferSucceeds p create length quiet before.environment) :
      Created create length quiet before (none, { before with environment := env })
  | made {env : Environment} {block : Block p} {made : Nat}
      (later : before.environment.Later env)
      (succeeds : BufferSucceeds p create length quiet before.environment)
      (asked : create length quiet = some made) (size : block.length = made) :
      Created create length quiet before (some made,
        { before with buffers := before.buffers.alloc block, environment := env })

theorem World.createDestinationBuffer_cases (world : World σ p)
    (create : Nat → Bool → Option Nat) (length : Nat) (quiet : Bool) :
    Created create length quiet world (world.createDestinationBuffer create length quiet) := by
  have later := world.environment.later_nextNativeFailure
  unfold World.createDestinationBuffer
  cases asked : create length quiet with
  | none =>
      refine .failed later ?_
      rintro ⟨_, made, made_eq, _⟩
      rw [asked] at made_eq
      cases made_eq
  | some made =>
      by_cases fits : world.environment.nextNativeFailure.1 = false ∧ made ≤ p.maxStringLength
      · simp only [fits, and_self, ↓reduceDIte]
        exact .made later ⟨fits.1, made, asked, fits.2⟩ asked (RString.resize_length _ _ _ fits.2)
      · simp only [fits, ↓reduceDIte]
        refine .failed later ?_
        rintro ⟨calm, other, other_eq, below⟩
        rw [asked] at other_eq
        cases other_eq
        exact fits ⟨calm, below⟩

/-- The library obtains a state if memory suffices and it accepts the options. -/
def StateSucceeds (initial : Except ε σ) (env : Environment) : Prop :=
  env.nextNativeFailure.1 = false ∧ ∃ state, initial = .ok state

theorem obtainState_cases (allocateFailed : ε) (initial : Except ε σ) (env : Environment) :
    (∃ code, obtainState allocateFailed initial env = (.error code, env.nextNativeFailure.2) ∧
        ¬ StateSucceeds initial env) ∨
      ∃ state, initial = .ok state ∧ StateSucceeds initial env ∧
        obtainState allocateFailed initial env = (.ok state, env.nextNativeFailure.2) := by
  unfold obtainState StateSucceeds
  cases fails : env.nextNativeFailure.1 with
  | true => exact .inl ⟨allocateFailed, by simp [fails], by simp⟩
  | false =>
      cases initial with
      | error code => exact .inl ⟨code, by simp [fails], by simp⟩
      | ok state => exact .inr ⟨state, rfl, by simp, by simp [fails]⟩

/-- Options resolve, and memory suffices for a state and for a destination buffer. -/
def InitializeSucceeds (arguments : Except Raised (Nat × Bool × ω)) (initial : ω → Except ε σ)
    (create : Nat → Bool → Option Nat) (quiet : ω → Bool) (world : World σ p) : Prop :=
  ∃ length gvl options, arguments = .ok (length, gvl, options) ∧
    StateSucceeds (initial options) world.environment ∧
    BufferSucceeds p create length (quiet options) world.environment.nextNativeFailure.2

/-- Everything `initialize` can do to an object. -/
inductive InitializeResult (arguments : Except Raised (Nat × Bool × ω))
    (initial : ω → Except ε σ) (create : Nat → Bool → Option Nat) (quiet : ω → Bool)
    (before : World σ p) : Effect σ p → Prop where
  | refused {exception : Raised} {after : World σ p}
      (fails : ¬ InitializeSucceeds arguments initial create quiet before)
      (untouched : Untouched before after) :
      InitializeResult arguments initial create quiet before (.raised exception after)
  | opened {length made stateHandle bufferHandle : Nat} {gvl : Bool} {options : ω} {state : σ}
      {after : World σ p} (succeeds : InitializeSucceeds arguments initial create quiet before)
      (resolved : arguments = .ok (length, gvl, options))
      (obtained : initial options = .ok state) (asked : create length (quiet options) = some made)
      (opened : Opened before (.fresh state made gvl) stateHandle bufferHandle after) :
      InitializeResult arguments initial create quiet before (.returned .nil after)

/-- Allocating and releasing again leaves the cells as they were. -/
theorem cell_free_alloc {κ : Type} (arena : Arena κ) (content : κ) :
    ∃ after, (arena.alloc content).free arena.next = some after ∧ after.cell = arena.cell := by
  have live := Arena.live_of_cell (arena.cell_alloc_next content)
  obtain ⟨after, freed, frees⟩ := Arena.exists_free live
  refine ⟨after, freed, funext fun handle => ?_⟩
  by_cases new : handle = arena.next
  · subst new
    rw [frees.cell_self, arena.unused (Nat.le_refl _)]
  · rw [frees.cell_other new]
    exact Function.update_of_ne new _ _

/-- The fields that a successful `initialize` assigns. -/
def NativeStream.initialized (stateHandle bufferHandle made : Nat) (gvl : Bool) : NativeStream where
  statePtr := some stateHandle
  destinationBuffer := some bufferHandle
  destinationBufferLength := made
  remainingDestinationBuffer := some ⟨bufferHandle, 0⟩
  remainingDestinationBufferLength := made
  gvl := gvl

/-- With a new state and a new buffer, these fields hold a fresh channel. -/
theorem openAt_initialized (states : Arena σ) (buffers : Arena (Block p)) (state : σ)
    {block : Block p} {made : Nat} (gvl : Bool) (size : block.length = made) :
    OpenAt (some (.initialized states.next buffers.next made gvl)) (states.alloc state)
      (buffers.alloc block) (.fresh state made gvl)
      (.initialized states.next buffers.next made gvl) states.next buffers.next block where
  object := rfl
  statePtr := rfl
  state := Arena.cell_alloc_next _ _
  destinationBuffer := rfl
  block := Arena.cell_alloc_next _ _
  capacity := size
  length := rfl
  cursor := rfl
  remaining := rfl
  pending := rfl
  gvl := rfl

/-- **What `initialize` does, to an open object or any other.** -/
theorem initializeStream_cases {arguments : Except Raised (Nat × Bool × ω)}
    {initial : ω → Except ε σ} {allocateFailed : ε} {errorOf : ε → Raised}
    {create : Nat → Bool → Option Nat} {quiet : ω → Bool} {world : World σ p}
    {stream : NativeStream} (object : world.object = some stream) :
    InitializeResult arguments initial create quiet world
      (initializeStream arguments (fun options => obtainState allocateFailed (initial options))
        errorOf create quiet world) := by
  rcases world with ⟨states, buffers, found, env, calls⟩
  obtain rfl : found = some stream := object
  have later := env.later_nextNativeFailure
  unfold initializeStream
  cases arguments with
  | error exception =>
      refine .refused ?_ ⟨rfl, rfl, rfl, rfl, .refl _⟩
      rintro ⟨_, _, _, impossible, _⟩
      cases impossible
  | ok values =>
      rcases values with ⟨length, gvl, options⟩
      rcases obtainState_cases allocateFailed (initial options) env with
        ⟨code, failed, fails⟩ | ⟨state, obtained, succeeds, found⟩
      · simp only [failed]
        refine .refused ?_ ⟨rfl, rfl, rfl, rfl, later⟩
        rintro ⟨_, _, _, same, succeeds, _⟩
        cases same
        exact fails succeeds
      · simp only [found]
        have created := World.createDestinationBuffer_cases
          ⟨states.alloc state, buffers, some stream, env.nextNativeFailure.2, calls⟩ create length
          (quiet options)
        generalize World.createDestinationBuffer _ create length (quiet options) = result
          at created ⊢
        cases created with
        | failed more fails =>
            obtain ⟨after, freed, same⟩ := cell_free_alloc states state
            simp only [freed]
            refine .refused ?_ ⟨rfl, same, rfl, rfl, later.trans more⟩
            rintro ⟨_, _, _, same, _, made⟩
            cases same
            exact fails made
        | @made env block made more room asked size =>
            refine .opened ⟨length, gvl, options, rfl, succeeds, room⟩ rfl obtained asked
              (?_ : Opened _ _ states.next buffers.next _)
            exact {
              opens := ⟨_, states.next, buffers.next, block, openAt_initialized _ _ _ _ size⟩
              stored := rfl
              stateFresh := Arena.not_live_next _
              bufferFresh := Arena.not_live_next _
              states := Arena.alloc_live_iff _ _
              buffers := Arena.alloc_live_iff _ _
              calls := rfl
              later := later.trans more }

/-! ## Close and free -/

/-- What the release of the stored handles did. -/
structure Released (before : World σ p) (stateHandle bufferHandle : Nat) (after : World σ p) :
    Prop where
  stored : before.stored = some (some stateHandle, some bufferHandle)
  states : ∀ handle, after.states.Live handle ↔ handle ≠ stateHandle ∧ before.states.Live handle
  buffers : ∀ handle,
    after.buffers.Live handle ↔ handle ≠ bufferHandle ∧ before.buffers.Live handle
  calls : after.calls = before.calls
  environment : after.environment = before.environment

section Release

variable {world : World σ p} {channel : Channel σ}

/-- On an open object, `close` releases the stored handles. -/
theorem closeStream_eq {stream : NativeStream} {stateHandle bufferHandle : Nat}
    {contents : Block p}
    (opened : OpenAt world.object world.states world.buffers channel stream stateHandle
      bufferHandle contents) :
    ∃ states buffers, world.states.Frees stateHandle states ∧
      world.buffers.Frees bufferHandle buffers ∧
      closeStream world = .returned .nil { world with
        states := states
        buffers := buffers
        object := some { stream with statePtr := none, destinationBuffer := none } } := by
  obtain ⟨states, stateFreed, statesAfter⟩ :=
    Arena.exists_free (Arena.live_of_cell opened.state)
  obtain ⟨buffers, bufferFreed, buffersAfter⟩ :=
    Arena.exists_free (Arena.live_of_cell opened.block)
  refine ⟨states, buffers, statesAfter, buffersAfter, ?_⟩
  unfold closeStream
  rw [withStream_open _ opened]
  simp only [opened.statePtr, opened.destinationBuffer, freeUnlessNull, stateFreed, bufferFreed]

/-- **What `close` does to an open object.** -/
theorem closeStream_open (opens : world.Opens channel) :
    ∃ stateHandle bufferHandle after, closeStream world = .returned .nil after ∧
      after.Closes ∧ Released world stateHandle bufferHandle after := by
  obtain ⟨stream, stateHandle, bufferHandle, contents, opened⟩ := opens
  obtain ⟨states, buffers, statesAfter, buffersAfter, closed⟩ := closeStream_eq opened
  refine ⟨stateHandle, bufferHandle, _, closed, ⟨_, rfl, rfl, rfl⟩, ?_⟩
  constructor
  · simp [World.stored, opened.object, opened.statePtr, opened.destinationBuffer]
  · exact statesAfter.live_iff
  · exact buffersAfter.live_iff
  · rfl
  · rfl

/-- The free function releases what an open object stores. -/
theorem freeStream_open (opens : world.Opens channel) :
    ∃ stateHandle bufferHandle after, freeStream world = some after ∧
      Released world stateHandle bufferHandle after := by
  obtain ⟨stream, stateHandle, bufferHandle, contents, opened⟩ := opens
  obtain ⟨states, stateFreed, statesAfter⟩ :=
    Arena.exists_free (Arena.live_of_cell opened.state)
  obtain ⟨buffers, bufferFreed, buffersAfter⟩ :=
    Arena.exists_free (Arena.live_of_cell opened.block)
  simp only [freeStream, opened.object, opened.statePtr, opened.destinationBuffer, freeUnlessNull,
    stateFreed, bufferFreed]
  refine ⟨stateHandle, bufferHandle, _, rfl, ?_⟩
  constructor
  · simp [World.stored, opened.object, opened.statePtr, opened.destinationBuffer]
  · exact statesAfter.live_iff
  · exact buffersAfter.live_iff
  · rfl
  · rfl

/-- The free function has nothing but the struct to release of a closed object. -/
theorem freeStream_closed (closes : world.Closes) :
    ∃ after, freeStream world = some after ∧ after.states = world.states ∧
      after.buffers = world.buffers := by
  obtain ⟨stream, object, statePtr, destinationBuffer⟩ := closes
  simp only [freeStream, object, statePtr, destinationBuffer, freeUnlessNull]
  exact ⟨_, rfl, rfl, rfl⟩

end Release

/-! ## Lives -/

/-- The object is open and holds the contents of a channel, or it is closed. -/
def World.Sound (world : World σ p) : Prop := (∃ channel, world.Opens channel) ∨ world.Closes

theorem World.Sound.exists_object {world : World σ p} (sound : world.Sound) :
    ∃ stream, world.object = some stream := by
  rcases sound with ⟨channel, stream, _, _, _, opened⟩ | ⟨stream, object, _⟩
  · exact ⟨stream, opened.object⟩
  · exact ⟨stream, object⟩

/-- The object as `lzws_ext_allocate_...` leaves it. -/
theorem World.allocate_closes (world : World σ p) : world.allocate.Closes :=
  ⟨_, rfl, rfl, rfl⟩

/-- The world in which a method leaves off; there is none after undefined behaviour. -/
def Effect.world? : Effect σ p → Option (World σ p)
  | .returned _ world => some world
  | .raised _ world => some world
  | .undefined => none

/-- The world after an `initialize` that returned. -/
def initializedWorld : Effect σ p → Option (World σ p)
  | .returned .nil world => some world
  | _ => none

theorem returned_of_initializedWorld {effect : Effect σ p} {world : World σ p}
    (found : initializedWorld effect = some world) : effect = .returned .nil world := by
  unfold initializedWorld at found
  split at found
  · cases found
    rfl
  · cases found

/--
What one method can do to the handles of an object: keep them, take new ones into
the struct, or release the stored ones.  It takes new ones just if it is `opening`.
-/
inductive LifeStep (opening : Prop) (before after : World σ p) : Prop where
  | kept (still : ¬ opening) (sound : after.Sound) (handles : SameHandles before after)
  | opened {channel : Channel σ} {stateHandle bufferHandle : Nat} (new : opening)
      (opened : Opened before channel stateHandle bufferHandle after)
  | closed {stateHandle bufferHandle : Nat} (still : ¬ opening) (closes : after.Closes)
      (released : Released before stateHandle bufferHandle after)

theorem LifeStep.sound {opening : Prop} {before after : World σ p}
    (step : LifeStep opening before after) : after.Sound := by
  cases step with
  | kept _ sound _ => exact sound
  | opened _ opened => exact .inl ⟨_, opened.opens⟩
  | closed _ closes _ => exact .inr closes

/-- A class of native objects: its methods, and what each can do to the handles. -/
structure NativeClass (σ : Type) (p : Platform) (μ : Type) where
  call : μ → World σ p → Effect σ p
  /-- Does this call take new handles? -/
  Opening : μ → World σ p → Prop
  step : ∀ (method : μ) (world : World σ p), world.Sound →
    ∃ after, (call method world).world? = some after ∧
      LifeStep (Opening method world) world after

/-- One step in the life of an object. -/
structure Step (σ : Type) (p : Platform) (μ : Type) where
  before : World σ p
  method : μ
  effect : Effect σ p

variable {μ : Type}

/-- The worlds that calls of methods lead to from `start`, with the steps taken. -/
inductive Reaches (call : μ → World σ p → Effect σ p) (start : World σ p) :
    List (Step σ p μ) → World σ p → Prop where
  | start : Reaches call start [] start
  | step {trace : List (Step σ p μ)} {world after : World σ p} (method : μ)
      (before : Reaches call start trace world)
      (ends : (call method world).world? = some after) :
      Reaches call start (trace ++ [⟨world, method, call method world⟩]) after

/-- The run rule: what every step preserves holds in every reached world. -/
theorem Reaches.invariant {call : μ → World σ p → Effect σ p} {start world : World σ p}
    {trace : List (Step σ p μ)} (inv : World σ p → Prop)
    (kept : ∀ method world after, inv world → (call method world).world? = some after → inv after)
    (reaches : Reaches call start trace world) (initial : inv start) : inv world := by
  induction reaches with
  | start => exact initial
  | step method _ ends ih => exact kept method _ _ ih ends

/-- A run may be read from its first call on. -/
theorem Reaches.cons {call : μ → World σ p → Effect σ p} {start next world : World σ p}
    {trace : List (Step σ p μ)} (method : μ) (ends : (call method start).world? = some next)
    (rest : Reaches call next trace world) :
    Reaches call start (⟨start, method, call method start⟩ :: trace) world := by
  induction rest with
  | start => exact .step method .start ends
  | step later _ more ih => exact .step later ih more

/-- Call the methods of a list one after another. -/
def follow (call : μ → World σ p → Effect σ p) :
    List μ → World σ p → Option (List (Step σ p μ) × World σ p)
  | [], world => some ([], world)
  | method :: methods, world =>
      match (call method world).world? with
      | none => none
      | some next =>
          (follow call methods next).map fun (trace, last) =>
            (⟨world, method, call method world⟩ :: trace, last)

theorem Reaches.of_follow {call : μ → World σ p → Effect σ p} {methods : List μ}
    {start world : World σ p} {trace : List (Step σ p μ)}
    (followed : follow call methods start = some (trace, world)) :
    Reaches call start trace world := by
  induction methods generalizing start trace with
  | nil =>
      cases followed
      exact .start
  | cons method methods ih =>
      unfold follow at followed
      cases ends : (call method start).world? with
      | none =>
          rw [ends] at followed
          cases followed
      | some next =>
          rw [ends] at followed
          obtain ⟨⟨rest, last⟩, onward, same⟩ := Option.map_eq_some_iff.mp followed
          cases same
          exact (ih onward).cons method ends

theorem follow_methods {call : μ → World σ p → Effect σ p} {methods : List μ}
    {start world : World σ p} {trace : List (Step σ p μ)}
    (followed : follow call methods start = some (trace, world)) :
    trace.map Step.method = methods := by
  induction methods generalizing start trace with
  | nil =>
      cases followed
      rfl
  | cons method methods ih =>
      unfold follow at followed
      cases ends : (call method start).world? with
      | none =>
          rw [ends] at followed
          cases followed
      | some next =>
          rw [ends] at followed
          obtain ⟨⟨rest, last⟩, onward, same⟩ := Option.map_eq_some_iff.mp followed
          cases same
          rw [List.map_cons, ih onward]

theorem NativeClass.reaches_sound (object : NativeClass σ p μ) {start world : World σ p}
    {trace : List (Step σ p μ)} (reaches : Reaches object.call start trace world)
    (initial : start.Sound) : world.Sound := by
  refine reaches.invariant World.Sound ?_ initial
  intro method world after sound ends
  obtain ⟨reached, same, step⟩ := object.step method world sound
  rw [ends] at same
  cases same
  exact step.sound

/-- In a sound world the free function has a next world. -/
theorem freeStream_sound {world : World σ p} (sound : world.Sound) :
    ∃ after, freeStream world = some after := by
  rcases sound with ⟨channel, opens⟩ | closes
  · obtain ⟨_, _, after, freed, _⟩ := freeStream_open opens
    exact ⟨after, freed⟩
  · obtain ⟨after, freed, _⟩ := freeStream_closed closes
    exact ⟨after, freed⟩

/-! ## Steps of the common methods -/

section Steps

variable {world : World σ p}

/-- A step that keeps the handles; such a step is not opening. -/
def KeepsHandles (before : World σ p) (effect : Effect σ p) : Prop :=
  ∃ after, effect.world? = some after ∧ after.Sound ∧ SameHandles before after

theorem KeepsHandles.lifeStep {before : World σ p} {effect : Effect σ p}
    (keeps : KeepsHandles before effect) :
    ∃ after, effect.world? = some after ∧ LifeStep False before after := by
  obtain ⟨after, ends, sound, handles⟩ := keeps
  exact ⟨after, ends, .kept not_false sound handles⟩

theorem keepsHandles_raised (exception : Raised) (sound : world.Sound) :
    KeepsHandles world (.raised exception world) :=
  ⟨world, rfl, sound, .refl world⟩

theorem CallResult.keepsHandles {answer : Nat → Bool → Answer p} {resultOf : ε → ExtError}
    {channel : Channel σ} {native : Native σ Byte Byte ε} {source : List Byte}
    {effect : Effect σ p}
    (result : CallResult answer resultOf world channel native source effect) :
    KeepsHandles world effect := by
  cases result with
  | notRun idle _ => exact ⟨_, rfl, .inl ⟨_, idle.opens⟩, idle.handles⟩
  | interrupted ran _ => exact ⟨_, rfl, .inl ⟨_, ran.opens⟩, ran.handles⟩
  | noMemory ran _ => exact ⟨_, rfl, .inl ⟨_, ran.opens⟩, ran.handles⟩
  | failed ran _ => exact ⟨_, rfl, .inl ⟨_, ran.opens⟩, ran.handles⟩
  | done ran _ => exact ⟨_, rfl, .inl ⟨_, ran.opens⟩, ran.handles⟩
  | needsMore ran _ => exact ⟨_, rfl, .inl ⟨_, ran.opens⟩, ran.handles⟩

theorem callStream_keepsHandles (native : Native σ Byte Byte ε) (resultOf : ε → ExtError)
    (sourceValue : Value p) (sound : world.Sound) :
    KeepsHandles world (callStream native resultOf sourceValue world) := by
  rcases sound with ⟨channel, opens⟩ | closes
  · by_cases string : ∃ source, sourceValue = .string source
    · obtain ⟨source, rfl⟩ := string
      exact (callStream_open native resultOf source opens).keepsHandles
    · rw [callStream_not_string native resultOf opens fun source same => string ⟨source, same⟩]
      exact keepsHandles_raised _ (.inl ⟨channel, opens⟩)
  · rw [callStream, withStream_closed _ closes]
    exact keepsHandles_raised _ (.inr closes)

theorem finishStream_keepsHandles (finish : Finish σ Byte ε) (resultOf : ε → ExtError)
    (sound : world.Sound) : KeepsHandles world (finishStream finish resultOf world) := by
  rcases sound with ⟨channel, opens⟩ | closes
  · exact (finishStream_open finish resultOf opens).keepsHandles
  · rw [finishStream, withStream_closed _ closes]
    exact keepsHandles_raised _ (.inr closes)

theorem readResultStream_keepsHandles (sound : world.Sound) :
    KeepsHandles world (readResultStream world) := by
  rcases sound with ⟨channel, opens⟩ | closes
  · have result := readResultStream_open opens
    generalize readResultStream world = effect at result ⊢
    cases result with
    | noMemory idle _ => exact ⟨_, rfl, .inl ⟨_, idle.opens⟩, idle.handles⟩
    | returned drained _ => exact ⟨_, rfl, .inl ⟨_, drained.opens⟩, drained.handles⟩
  · rw [readResultStream, withStream_closed _ closes]
    exact keepsHandles_raised _ (.inr closes)

theorem closeStream_step (sound : world.Sound) :
    ∃ after, (closeStream world).world? = some after ∧ LifeStep False world after := by
  rcases sound with ⟨channel, opens⟩ | closes
  · obtain ⟨_, _, after, closed, closes, released⟩ := closeStream_open opens
    exact ⟨after, by rw [closed]; rfl, .closed not_false closes released⟩
  · rw [closeStream, withStream_closed _ closes]
    exact (keepsHandles_raised _ (.inr closes)).lifeStep

theorem Untouched.sound {after : World σ p} (untouched : Untouched world after)
    (sound : world.Sound) : after.Sound := by
  rcases sound with ⟨channel, opens⟩ | closes
  · exact .inl ⟨channel, untouched.opens opens⟩
  · exact .inr (untouched.closes closes)

theorem initializeStream_step {arguments : Except Raised (Nat × Bool × ω)}
    {initial : ω → Except ε σ} {allocateFailed : ε} {errorOf : ε → Raised}
    {create : Nat → Bool → Option Nat} {quiet : ω → Bool} (sound : world.Sound) :
    ∃ after, (initializeStream arguments
        (fun options => obtainState allocateFailed (initial options)) errorOf create quiet
        world).world? = some after ∧
      LifeStep (InitializeSucceeds arguments initial create quiet world) world after := by
  obtain ⟨stream, object⟩ := sound.exists_object
  have result : InitializeResult arguments initial create quiet world
      (initializeStream arguments (fun options => obtainState allocateFailed (initial options))
        errorOf create quiet world) := initializeStream_cases object
  generalize initializeStream arguments _ errorOf create quiet world = effect at result ⊢
  cases result with
  | refused fails untouched =>
      exact ⟨_, rfl, .kept fails (untouched.sound sound) untouched.handles⟩
  | opened succeeds _ _ _ opened => exact ⟨_, rfl, .opened succeeds opened⟩

end Steps

end RubyLzws.Ext
