import RubyLzws.Ext.StreamContents
import RubyLzws.Library.Interleaving

/-!
# Threads

`LZWS_EXT_GVL_WRAP` releases the lock of the virtual machine while the codec runs, so
that other threads call methods before the first call is done.  A process holds any
number of stream objects of any classes, which share the memory that the codecs
allocate, and any number of threads; a call that releases the lock takes two steps.
-/

namespace RubyLzws.Ext

open Library Library.Transducer

variable {σ ε : Type} {p : Platform}

/-! ## Calls that release the lock -/

/-- A method that was called: it has ended, or it has released the lock to run the codec. -/
inductive Entered (σ : Type) (p : Platform) where
  | ended (effect : Effect σ p)
  | released (resume : World σ p → Effect σ p)

/-- `GET_COMPRESSOR` and `DO_NOT_USE_AFTER_CLOSE`, or their siblings. -/
def enterStream (world : World σ p) (method : NativeStream → Entered σ p) : Entered σ p :=
  match world.object with
  | none => .ended .undefined
  | some stream =>
      if stream.statePtr = none ∨ stream.destinationBuffer = none then
        .ended (.raised (lzwsExtRaiseError .usedAfterClose) world)
      else method stream

/--
`rb_thread_call_without_gvl` around a wrapper function, and what follows if it returns.  The
wrapper function reads the fields of the struct when it runs.
-/
def World.callWithoutGvl (world : World σ p) (native : Native σ Byte Byte ε) (source : List Byte)
    (next : NativeRun σ ε p → Effect σ p) : Effect σ p :=
  world.afterWrap world.environment.nextDelivery
    (fun world => world.object.bind fun stream => world.runNative stream native source) next

/-- `LZWS_EXT_GVL_WRAP`: without the lock, the wrapper function runs in a later world. -/
def World.enterNative (world : World σ p) (stream : NativeStream) (native : Native σ Byte Byte ε)
    (source : List Byte) (next : NativeRun σ ε p → Effect σ p) : Entered σ p :=
  if KeepsLock p stream.gvl then
    .ended (world.wrapNative stream native source next)
  else .released fun later => later.callWithoutGvl native source next

/-- `lzws_ext_compress` and `lzws_ext_decompress`, up to the codec call. -/
def enterCall (native : Native σ Byte Byte ε) (resultOf : ε → ExtError) (sourceValue : Value p)
    (world : World σ p) : Entered σ p :=
  enterStream world fun stream =>
    match checkString sourceValue with
    | .error exception => .ended (.raised exception world)
    | .ok source =>
        world.enterNative stream native source.bytes (answerCall resultOf source.length)

/-- `lzws_ext_compressor_finish`, up to the codec call. -/
def enterFinish (finish : Finish σ Byte ε) (resultOf : ε → ExtError) (world : World σ p) :
    Entered σ p :=
  enterStream world fun stream =>
    world.enterNative stream (Native.ofFinish finish) [] (answerFinish resultOf)

/-- The methods of `NativeCompressor`, up to the codec call where there is one. -/
def CompressorMethod.enter (codec : CompressorCodec σ) :
    CompressorMethod p → World σ p → Entered σ p
  | .initializeObject options, world => .ended (lzwsExtInitializeCompressor codec options world)
  | .write source, world => enterCall codec.compress (fun _ => .unexpected) source world
  | .finish, world => enterFinish codec.finish (fun _ => .unexpected) world
  | .readResult, world => .ended (lzwsExtCompressorReadResult world)
  | .close, world => .ended (lzwsExtCompressorClose world)

/-- The methods of `NativeDecompressor`, up to the codec call where there is one. -/
def DecompressorMethod.enter (codec : DecompressorCodec σ) :
    DecompressorMethod p → World σ p → Entered σ p
  | .initializeObject options, world => .ended (lzwsExtInitializeDecompressor codec options world)
  | .read source, world => enterCall codec.decompress decompressResult source world
  | .readResult, world => .ended (lzwsExtDecompressorReadResult world)
  | .close, world => .ended (lzwsExtDecompressorClose world)

/--
What is left of a method that has released the lock with this struct, which is open: in
any later world with the same struct the rest of the call is the whole call.
-/
inductive Suspended (method : World σ p → Effect σ p) (stream : NativeStream) :
    (World σ p → Effect σ p) → Prop where
  | native {ε : Type} {native : Native σ Byte Byte ε} {source : List Byte}
      {next : NativeRun σ ε p → Effect σ p}
      (stored : ¬ (stream.statePtr = none ∨ stream.destinationBuffer = none))
      (unlocked : ¬ KeepsLock p stream.gvl)
      (same : ∀ later : World σ p, later.object = some stream →
        later.callWithoutGvl native source next = method later) :
      Suspended method stream fun later => later.callWithoutGvl native source next

/-- How a method is entered: either it ends as it ends when called, or the lock is released. -/
inductive Enters (method : World σ p → Effect σ p) (world : World σ p) : Entered σ p → Prop where
  | ended : Enters method world (.ended (method world))
  | released {stream : NativeStream} {resume : World σ p → Effect σ p}
      (object : world.object = some stream) (suspended : Suspended method stream resume) :
      Enters method world (.released resume)

section Suspended

variable {method resume : World σ p → Effect σ p} {stream : NativeStream} {later : World σ p}

theorem Suspended.resume_eq (suspended : Suspended method stream resume)
    (object : later.object = some stream) : resume later = method later := by
  cases suspended with
  | native _ _ same => exact same later object

/-- A struct with which the lock was released belongs to an open object. -/
theorem Suspended.exists_channel (suspended : Suspended method stream resume) {states : Arena σ}
    {buffers : Arena (Block p)} {contents : Contents σ}
    (holds : Holds (some stream) states buffers contents) :
    ∃ channel, contents = some channel ∧ ¬ KeepsLock p channel.gvl := by
  cases suspended with
  | native stored unlocked _ =>
      cases contents with
      | none =>
          obtain ⟨_, object, null, _⟩ := holds
          cases object
          exact absurd (.inl null) stored
      | some channel =>
          obtain ⟨_, _, _, _, opened⟩ := holds
          cases opened.object
          rw [opened.gvl] at unlocked
          exact ⟨channel, rfl, unlocked⟩

/-- A wrapper function that goes wrong leaves nothing defined, if it runs. -/
theorem afterWrap_undefined {answered : Delivery × Environment}
    {wrapper : World σ p → Option (NativeRun σ ε p)} {next : NativeRun σ ε p → Effect σ p}
    (wrong : ∀ env, wrapper { later with environment := env } = none)
    (runs : answered.1 ≠ .before) : later.afterWrap answered wrapper next = .undefined := by
  rcases answered with ⟨delivery, env⟩
  cases delivery with
  | nothing => simp only [World.afterWrap, wrong]
  | before => exact absurd rfl runs
  | after => simp only [World.afterWrap, wrong]

/-- Once the object has been closed, the codec gets no state, if it runs. -/
theorem Suspended.undefined_of_closed (suspended : Suspended method stream resume)
    (closed : later.object.bind NativeStream.statePtr = none)
    (runs : later.environment.nextDelivery.1 ≠ .before) : resume later = .undefined := by
  cases suspended with
  | native _ _ _ =>
      apply afterWrap_undefined _ runs
      intro env
      cases object : later.object with
      | none => rfl
      | some found =>
          rw [object] at closed
          simp only [Option.bind_some] at closed
          simp only [Option.bind_some, World.runNative, closed]
          rfl

end Suspended

section Enter

variable {world : World σ p} {stream : NativeStream} {method : World σ p → Effect σ p}

theorem Enters.of_eq {effect : Effect σ p} (same : effect = method world) :
    Enters method world (.ended effect) := by
  rw [same]
  exact .ended

theorem withStream_some {body : NativeStream → Effect σ p} (object : world.object = some stream)
    (stored : ¬ (stream.statePtr = none ∨ stream.destinationBuffer = none)) :
    withStream world body = body stream := by
  unfold withStream
  rw [object]
  exact if_neg stored

/-- The check for closed objects ends a method before anything else is done. -/
theorem enterStream_enters {part : NativeStream → Entered σ p}
    {body : World σ p → NativeStream → Effect σ p}
    (opened : ∀ stream, world.object = some stream →
      ¬ (stream.statePtr = none ∨ stream.destinationBuffer = none) →
      (∀ later, later.object = some stream → withStream later (body later) = body later stream) →
        Enters (fun later => withStream later (body later)) world (part stream)) :
    Enters (fun later => withStream later (body later)) world (enterStream world part) := by
  unfold enterStream
  cases object : world.object with
  | none =>
      apply Enters.of_eq
      unfold withStream
      rw [object]
  | some stream =>
      simp only
      split
      · next closed =>
          apply Enters.of_eq
          unfold withStream
          rw [object]
          exact (if_pos closed).symm
      · next stored => exact opened stream object stored fun _ same => withStream_some same stored

/-- A struct that nobody has changed meanwhile is the one seen before. -/
theorem callWithoutGvl_eq {native : Native σ Byte Byte ε} {source : List Byte}
    {next : NativeRun σ ε p → Effect σ p} (unlocked : ¬ KeepsLock p stream.gvl)
    (object : world.object = some stream) :
    world.callWithoutGvl native source next = world.wrapNative stream native source next := by
  unfold World.callWithoutGvl World.wrapNative
  rw [gvlWrap_of_unlocked unlocked]
  simp only [World.afterWrap, object, Option.bind_some]

/-- With the lock held, the wrapper function ends the method. -/
theorem enterNative_enters {native : Native σ Byte Byte ε} {source : List Byte}
    {next : NativeRun σ ε p → Effect σ p} (object : world.object = some stream)
    (stored : ¬ (stream.statePtr = none ∨ stream.destinationBuffer = none))
    (same : ∀ later : World σ p, later.object = some stream →
      later.wrapNative stream native source next = method later) :
    Enters method world (world.enterNative stream native source next) := by
  unfold World.enterNative
  split
  · exact .of_eq (same world object)
  · next unlocked =>
      refine .released object (.native stored unlocked ?_)
      intro later unchanged
      exact (callWithoutGvl_eq unlocked unchanged).trans (same later unchanged)

end Enter

theorem enterCall_enters (native : Native σ Byte Byte ε) (resultOf : ε → ExtError)
    (sourceValue : Value p) (world : World σ p) :
    Enters (callStream native resultOf sourceValue) world
      (enterCall native resultOf sourceValue world) := by
  apply enterStream_enters
  intro stream object stored opened
  cases checked : checkString sourceValue with
  | error exception =>
      apply Enters.of_eq
      rw [checked] at opened
      exact (opened world object).symm
  | ok source =>
      rw [checked] at opened
      exact enterNative_enters object stored fun later same => (opened later same).symm

theorem enterFinish_enters (finish : Finish σ Byte ε) (resultOf : ε → ExtError)
    (world : World σ p) :
    Enters (finishStream finish resultOf) world (enterFinish finish resultOf world) := by
  apply enterStream_enters
  intro stream object stored opened
  exact enterNative_enters object stored fun later same => (opened later same).symm

theorem CompressorMethod.enters (codec : CompressorCodec σ) (method : CompressorMethod p)
    (world : World σ p) : Enters (method.call codec) world (method.enter codec world) := by
  cases method with
  | write source => exact enterCall_enters _ _ source world
  | finish => exact enterFinish_enters _ _ world
  | _ => exact .ended

theorem DecompressorMethod.enters (codec : DecompressorCodec σ) (method : DecompressorMethod p)
    (world : World σ p) : Enters (method.call codec) world (method.enter codec world) := by
  cases method with
  | read source => exact enterCall_enters _ _ source world
  | _ => exact .ended

/-! ## Classes -/

/-- A class of stream objects: its methods, what they do to the contents, and how they start. -/
structure StreamClass (σ : Type) (p : Platform) (μ : Type) extends NativeClass σ p μ where
  observe : μ → Contents σ → Environment → Observed σ
  enter : μ → World σ p → Entered σ p
  /-- Is this method `initialize`? -/
  initializes : μ → Bool
  simulates : ∀ (method : μ) {world : World σ p} {contents : Contents σ}, world.Holds contents →
    Simulates world (call method world) (observe method contents world.environment)
  enters : ∀ (method : μ) (world : World σ p), Enters (call method) world (enter method world)
  opening : ∀ {method : μ} {world : World σ p}, Opening method world → initializes method = true
  /-- `initialize` never releases the lock. -/
  released : ∀ {method : μ} {world : World σ p} {resume : World σ p → Effect σ p},
    enter method world = .released resume → initializes method = false

/-- Is this method `initialize`? -/
def CompressorMethod.initializes : CompressorMethod p → Bool
  | .initializeObject _ => true
  | _ => false

/-- Is this method `initialize`? -/
def DecompressorMethod.initializes : DecompressorMethod p → Bool
  | .initializeObject _ => true
  | _ => false

theorem CompressorMethod.initializes_of_opening {codec : CompressorCodec σ}
    {method : CompressorMethod p} {world : World σ p} (opening : method.Opening codec world) :
    method.initializes = true := by
  cases method with
  | initializeObject options => rfl
  | _ => exact opening.elim

theorem DecompressorMethod.initializes_of_opening {codec : DecompressorCodec σ}
    {method : DecompressorMethod p} {world : World σ p} (opening : method.Opening codec world) :
    method.initializes = true := by
  cases method with
  | initializeObject options => rfl
  | _ => exact opening.elim

theorem CompressorMethod.not_initializes_of_released {codec : CompressorCodec σ}
    {method : CompressorMethod p} {world : World σ p} {resume : World σ p → Effect σ p}
    (released : method.enter codec world = .released resume) : method.initializes = false := by
  cases method with
  | initializeObject options => cases released
  | _ => rfl

theorem DecompressorMethod.not_initializes_of_released {codec : DecompressorCodec σ}
    {method : DecompressorMethod p} {world : World σ p} {resume : World σ p → Effect σ p}
    (released : method.enter codec world = .released resume) : method.initializes = false := by
  cases method with
  | initializeObject options => cases released
  | _ => rfl

/-- `Stream::NativeCompressor` -/
def compressorClass (codec : CompressorCodec σ) (p : Platform) :
    StreamClass σ p (CompressorMethod p) where
  toNativeClass := nativeCompressor codec p
  observe := CompressorMethod.observe codec
  enter := CompressorMethod.enter codec
  initializes := CompressorMethod.initializes
  simulates := fun method {_ _} => method.simulates codec
  enters := CompressorMethod.enters codec
  opening := CompressorMethod.initializes_of_opening
  released := CompressorMethod.not_initializes_of_released

/-- `Stream::NativeDecompressor` -/
def decompressorClass (codec : DecompressorCodec σ) (p : Platform) :
    StreamClass σ p (DecompressorMethod p) where
  toNativeClass := nativeDecompressor codec p
  observe := DecompressorMethod.observe codec
  enter := DecompressorMethod.enter codec
  initializes := DecompressorMethod.initializes
  simulates := fun method {_ _} => method.simulates codec
  enters := DecompressorMethod.enters codec
  opening := DecompressorMethod.initializes_of_opening
  released := DecompressorMethod.not_initializes_of_released

/-- The classes of the module `Stream`. -/
inductive StreamKind where
  | compressor
  | decompressor
  deriving DecidableEq, Repr

/-- The states of lzws behind the objects of a class. -/
abbrev StreamKind.State (σ τ : Type) : StreamKind → Type
  | .compressor => σ
  | .decompressor => τ

/-- The methods of a class. -/
abbrev StreamKind.Method (p : Platform) : StreamKind → Type
  | .compressor => CompressorMethod p
  | .decompressor => DecompressorMethod p

/-- Both classes. -/
def streamClasses {τ : Type} (compressor : CompressorCodec σ) (decompressor : DecompressorCodec τ)
    (p : Platform) : (kind : StreamKind) → StreamClass (kind.State σ τ) p (kind.Method p)
  | .compressor => compressorClass compressor p
  | .decompressor => decompressorClass decompressor p

/-! ## Codecs that keep the lock -/

/-- Contents whose codec keeps the lock. -/
def Contents.KeepsLock (p : Platform) (contents : Contents σ) : Prop :=
  ∀ channel, contents = some channel → Ext.KeepsLock p channel.gvl

/-- Arguments of `initialize` with which the codec keeps the lock. -/
def ArgumentsKeepLock {ω : Type} (p : Platform) : Except Raised (Nat × Bool × ω) → Prop
  | .error _ => True
  | .ok (_, gvl, _) => KeepsLock p gvl

instance {ω : Type} (p : Platform) : DecidablePred (ArgumentsKeepLock (ω := ω) p) := fun
  | .error _ => .isTrue trivial
  | .ok (_, gvl, _) => inferInstanceAs (Decidable (KeepsLock p gvl))

/-- An `initialize` of a compressor makes its codec keep the lock. -/
def CompressorMethod.KeepsLock (codec : CompressorCodec σ) : CompressorMethod p → Prop
  | .initializeObject options => ArgumentsKeepLock p (initializeCompressorArguments codec options)
  | _ => True

/-- An `initialize` of a decompressor makes its codec keep the lock. -/
def DecompressorMethod.KeepsLock (codec : DecompressorCodec σ) : DecompressorMethod p → Prop
  | .initializeObject options => ArgumentsKeepLock p (initializeDecompressorArguments codec options)
  | _ => True

instance (codec : CompressorCodec σ) :
    DecidablePred (CompressorMethod.KeepsLock codec : CompressorMethod p → Prop)
  | .initializeObject options =>
      inferInstanceAs
        (Decidable (ArgumentsKeepLock p (initializeCompressorArguments codec options)))
  | .write _ | .finish | .readResult | .close => .isTrue trivial

instance (codec : DecompressorCodec σ) :
    DecidablePred (DecompressorMethod.KeepsLock codec : DecompressorMethod p → Prop)
  | .initializeObject options =>
      inferInstanceAs
        (Decidable (ArgumentsKeepLock p (initializeDecompressorArguments codec options)))
  | .read _ | .readResult | .close => .isTrue trivial

namespace Contents

theorem KeepsLock.some {channel : Channel σ} (keeps : Ext.KeepsLock p channel.gvl) :
    KeepsLock p (some channel) := by
  intro other same
  cases same
  exact keeps

theorem KeepsLock.none : KeepsLock p (none : Contents σ) := by
  intro channel impossible
  cases impossible

variable {contents : Contents σ}

theorem KeepsLock.whenOpen (keeps : contents.KeepsLock p) (env : Environment)
    {method : Channel σ → Observed σ}
    (opened : ∀ channel, Ext.KeepsLock p channel.gvl → (method channel).contents.KeepsLock p) :
    (contents.whenOpen env method).contents.KeepsLock p := by
  cases contents with
  | none => exact .none
  | some channel => exact opened channel (keeps channel rfl)

theorem KeepsLock.wrapped {channel : Channel σ} (keeps : Ext.KeepsLock p channel.gvl)
    (native : Native σ Byte Byte ε) (source : List Byte)
    (seen : Nat → Status ε → Environment → Seen × Environment) (env : Environment) :
    (channel.wrapped p native source seen env).contents.KeepsLock p := by
  unfold Channel.wrapped
  split
  · exact .some keeps
  · exact .some keeps
  · exact .some keeps

theorem KeepsLock.initializeObject {ω : Type} {arguments : Except Raised (Nat × Bool × ω)}
    (keeps : contents.KeepsLock p) (new : ArgumentsKeepLock p arguments)
    (getInitialState : ω → Environment → Except ε σ × Environment) (errorOf : ε → Raised)
    (create : Nat → Bool → Option Nat) (quiet : ω → Bool) (env : Environment) :
    (contents.initializeObject p arguments getInitialState errorOf create quiet
      env).contents.KeepsLock p := by
  unfold Contents.initializeObject
  split
  · exact keeps
  · split
    · exact keeps
    · simp only
      split
      · exact keeps
      · split
        · exact .some new
        · exact keeps

theorem KeepsLock.call (keeps : contents.KeepsLock p) (native : Native σ Byte Byte ε)
    (resultOf : ε → ExtError) (sourceValue : Value p) (env : Environment) :
    (contents.call native resultOf sourceValue env).contents.KeepsLock p := by
  refine keeps.whenOpen env fun channel kept => ?_
  split
  · exact keeps
  · exact .wrapped kept native _ _ env

theorem KeepsLock.finish (keeps : contents.KeepsLock p) (finish : Finish σ Byte ε)
    (resultOf : ε → ExtError) (env : Environment) :
    (contents.finish p finish resultOf env).contents.KeepsLock p :=
  keeps.whenOpen env fun _ kept => .wrapped kept _ _ _ env

theorem KeepsLock.readResult (keeps : contents.KeepsLock p) (env : Environment) :
    (contents.readResult env).contents.KeepsLock p := by
  refine keeps.whenOpen env fun channel kept => ?_
  simp only
  split
  · exact keeps
  · exact .some kept

theorem KeepsLock.close (keeps : contents.KeepsLock p) (env : Environment) :
    (contents.close env).contents.KeepsLock p :=
  keeps.whenOpen env fun _ _ => .none

end Contents

theorem CompressorMethod.keepsLock (codec : CompressorCodec σ) {method : CompressorMethod p}
    (holds : method.KeepsLock codec) {contents : Contents σ} (keeps : contents.KeepsLock p)
    (env : Environment) : (method.observe codec contents env).contents.KeepsLock p := by
  cases method with
  | initializeObject options => exact keeps.initializeObject holds _ _ _ _ env
  | write source => exact keeps.call _ _ source env
  | finish => exact keeps.finish _ _ env
  | readResult => exact keeps.readResult env
  | close => exact keeps.close env

theorem DecompressorMethod.keepsLock (codec : DecompressorCodec σ) {method : DecompressorMethod p}
    (holds : method.KeepsLock codec) {contents : Contents σ} (keeps : contents.KeepsLock p)
    (env : Environment) : (method.observe codec contents env).contents.KeepsLock p := by
  cases method with
  | initializeObject options => exact keeps.initializeObject holds _ _ _ _ env
  | read source => exact keeps.call _ _ source env
  | readResult => exact keeps.readResult env
  | close => exact keeps.close env

/-- Methods of both classes that make no codec let go of the lock. -/
def streamKeepsLock {τ : Type} (compressor : CompressorCodec σ) (decompressor : DecompressorCodec τ)
    (p : Platform) : (kind : StreamKind) → kind.Method p → Prop
  | .compressor => CompressorMethod.KeepsLock compressor
  | .decompressor => DecompressorMethod.KeepsLock decompressor

instance {τ : Type} (compressor : CompressorCodec σ) (decompressor : DecompressorCodec τ)
    (p : Platform) : (kind : StreamKind) →
      DecidablePred (streamKeepsLock compressor decompressor p kind)
  | .compressor => inferInstanceAs (DecidablePred (CompressorMethod.KeepsLock compressor))
  | .decompressor => inferInstanceAs (DecidablePred (DecompressorMethod.KeepsLock decompressor))

theorem streamKeepsLock_observe {τ : Type} (compressor : CompressorCodec σ)
    (decompressor : DecompressorCodec τ) (kind : StreamKind) (method : kind.Method p)
    (contents : Contents (kind.State σ τ)) (env : Environment)
    (holds : streamKeepsLock compressor decompressor p kind method) (keeps : contents.KeepsLock p) :
    ((streamClasses compressor decompressor p kind).observe method contents
      env).contents.KeepsLock p := by
  cases kind with
  | compressor => exact CompressorMethod.keepsLock compressor holds keeps env
  | decompressor => exact DecompressorMethod.keepsLock decompressor holds keeps env

/-- `close`, in either class. -/
def StreamKind.close (p : Platform) : (kind : StreamKind) → kind.Method p
  | .compressor => CompressorMethod.close
  | .decompressor => DecompressorMethod.close

theorem enter_close {τ : Type} (compressor : CompressorCodec σ) (decompressor : DecompressorCodec τ)
    (kind : StreamKind) (world : World (kind.State σ τ) p) :
    (streamClasses compressor decompressor p kind).enter (kind.close p) world =
      .ended (closeStream world) := by
  cases kind <;> rfl

end RubyLzws.Ext
