import RubyLzws.Ext.Io
import RubyLzws.Ext.StreamContents
import RubyLzws.Ext.StringMemory

/-!
# What keeping the lock changes

`gvl: true` in place of `gvl: false`: the codec is called without asking for interrupts, and
without letting other threads in.  Here a call has its source, its files and its object to
itself.  Then one that no interrupt ended goes the same way with the lock kept; a method of
a stream object that an interrupt ended has either not run, or has run in full and lost its
answer.
-/

namespace RubyLzws.Ext

open Library.Transducer Library.Loop

variable {σ ε ω φ : Type} {p : Platform}

/-! ## Options -/

/-- The same hash with `gvl: true` in place of `gvl: false`. -/
def Hash.keepLock (options : Hash p) : Hash p
  | .gvl =>
      match options .gvl with
      | some .false => some .true
      | value => value
  | name => options name

def Argument.keepLock : Argument p → Argument p
  | .hash entries => .hash entries.keepLock
  | .notHash => .notHash

theorem Hash.get_keepLock (options : Hash p) {name : OptionName} (different : name ≠ .gvl) :
    options.keepLock.get name = options.get name := by
  cases name with
  | gvl => exact absurd rfl different
  | _ => rfl

/-- A lock that could be released is kept. -/
theorem lzwsExtGetBoolOptionValue_keepLock (options : Hash p) :
    lzwsExtGetBoolOptionValue options.keepLock .gvl =
      (fun _ => true) <$> lzwsExtGetBoolOptionValue options .gvl := by
  unfold lzwsExtGetBoolOptionValue Hash.get Hash.keepLock
  cases options .gvl with
  | none => rfl
  | some value =>
      cases value with
      | integer number =>
          by_cases small : IsFixnum p number
          · simp [getBoolValue, Value.type, small]
          · simp [getBoolValue, Value.type, small]
      | _ => rfl

theorem lzwsExtGetSizeOptionValue_keepLock (options : Hash p) {name : OptionName}
    (different : name ≠ .gvl) :
    lzwsExtGetSizeOptionValue options.keepLock name = lzwsExtGetSizeOptionValue options name := by
  rw [lzwsExtGetSizeOptionValue, Hash.get_keepLock options different]
  rfl

/-- Options of a codec do not depend on the lock. -/
def IgnoresLock (getOptions : Hash p → Except Raised ω) : Prop :=
  ∀ options, getOptions options.keepLock = getOptions options

theorem lzwsExtGetCompressorOptions_ignoresLock (defaults : CompressorOptions) :
    IgnoresLock (p := p) (lzwsExtGetCompressorOptions defaults) := fun _ => rfl

theorem lzwsExtGetDecompressorOptions_ignoresLock (defaults : DecompressorOptions) :
    IgnoresLock (p := p) (lzwsExtGetDecompressorOptions defaults) := fun _ => rfl

/-! ## Arguments -/

theorem checkHash_keepLock (options : Argument p) :
    checkHash options.keepLock = Hash.keepLock <$> checkHash options := by
  cases options with
  | hash entries => rfl
  | notHash => rfl

theorem stringArguments_keepLock {getOptions : Hash p → Except Raised ω}
    (ignores : IgnoresLock getOptions) (sourceValue : Value p) (options : Argument p) :
    stringArguments getOptions sourceValue options.keepLock =
      (fun (source, length, _, options) => (source, length, true, options)) <$>
        stringArguments getOptions sourceValue options := by
  simp [stringArguments, checkHash_keepLock, lzwsExtGetBoolOptionValue_keepLock,
    lzwsExtGetSizeOptionValue_keepLock, ignores _]

theorem initializeArguments_keepLock {getOptions : Hash p → Except Raised ω}
    (ignores : IgnoresLock getOptions) (options : Argument p) :
    initializeArguments getOptions options.keepLock =
      (fun (length, _, options) => (length, true, options)) <$>
        initializeArguments getOptions options := by
  simp [initializeArguments, checkHash_keepLock, lzwsExtGetBoolOptionValue_keepLock,
    lzwsExtGetSizeOptionValue_keepLock, ignores _]

theorem ioArguments_keepLock {getOptions : Hash p → Except Raised ω}
    (ignores : IgnoresLock getOptions) (source : FileArgument (List Byte))
    (destination : FileArgument φ) (options : Argument p) :
    ioArguments getOptions source destination options.keepLock =
      (fun arguments => { arguments with gvl := true }) <$>
        ioArguments getOptions source destination options := by
  simp [ioArguments, checkHash_keepLock, lzwsExtGetBoolOptionValue_keepLock,
    lzwsExtGetSizeOptionValue_keepLock, ignores _]

/-! ## The string functions -/

/-- A result in surroundings, without what these would have delivered later. -/
abbrev withoutDeliveries {α : Type} : α × Environment → α × Environment :=
  Prod.map id Environment.withoutDeliveries

/-- The function was not left by an interrupt. -/
def NotInterrupted {α : Type} (result : Exit α × Environment) : Prop :=
  result.1 ≠ .raised .interrupt

theorem lzwsExtResizeStringBuffer_withoutDeliveries (buffer : RString p) (length : Nat)
    (env : Environment) :
    lzwsExtResizeStringBuffer buffer length env.withoutDeliveries =
      withoutDeliveries (lzwsExtResizeStringBuffer buffer length env) := by
  unfold lzwsExtResizeStringBuffer
  by_cases raises : env.nextArrayFailure.1 = true
  · simp [raises]
  · by_cases fits : env.nextArrayFailure.2.nextStringFailure.1 = false ∧
        length ≤ p.maxStringLength
    · simp [raises, fits]
    · simp [raises, fits]

theorem increaseDestinationBuffer_withoutDeliveries (destinationBufferLength : Nat)
    (buffers : Buffers σ p) (env : Environment) :
    increaseDestinationBuffer destinationBufferLength buffers env.withoutDeliveries =
      withoutDeliveries (increaseDestinationBuffer destinationBufferLength buffers env) := by
  unfold increaseDestinationBuffer
  split
  · rfl
  · rw [lzwsExtResizeStringBuffer_withoutDeliveries]
    rcases lzwsExtResizeStringBuffer _ _ env with ⟨exit, after⟩
    cases exit with
    | ok resized => rfl
    | error code => rfl
    | raised exception => rfl

theorem Buffers.shrink_withoutDeliveries (buffers : Buffers σ p) (env : Environment) :
    buffers.shrink env.withoutDeliveries = withoutDeliveries (buffers.shrink env) := by
  unfold Buffers.shrink
  rw [lzwsExtResizeStringBuffer_withoutDeliveries]
  rcases lzwsExtResizeStringBuffer _ _ env with ⟨exit, after⟩
  cases exit with
  | ok resized => rfl
  | error code => rfl
  | raised exception => rfl

/-- A turn that no interrupt ends is the turn that keeps the lock. -/
theorem bufferedTurn_keepLock {gvl : Bool} {native : Native σ Byte Byte ε}
    {resultOf : ε → ExtError} {destinationBufferLength : Nat} (state : Buffers σ p × Environment)
    (undisturbed : ∀ result,
      bufferedTurn gvl native resultOf destinationBufferLength state = .leave result →
        NotInterrupted result) :
    bufferedTurn true native resultOf destinationBufferLength (withoutDeliveries state) =
      (bufferedTurn gvl native resultOf destinationBufferLength state).map withoutDeliveries
        withoutDeliveries := by
  rcases state with ⟨buffers, env⟩
  have same := gvlWrap_withoutDeliveries p gvl env
  simp only [bufferedTurn, Prod.map_apply, id_eq, gvlWrap_locked] at undisturbed ⊢
  rw [← same]
  generalize gvlWrap p gvl env = wrapped at undisturbed ⊢
  rcases wrapped with ⟨delivery, after⟩
  cases delivery with
  | before => exact absurd rfl (undisturbed _ rfl)
  | after => exact absurd rfl (undisturbed _ rfl)
  | nothing =>
      dsimp only
      rw [increaseDestinationBuffer_withoutDeliveries]
      cases (native buffers.state buffers.remainingSource
          buffers.remainingDestinationBufferLength).status with
      | error code => rfl
      | ok => rfl
      | needsMore =>
          dsimp only
          rcases increaseDestinationBuffer destinationBufferLength _ after with ⟨exit, last⟩
          cases exit with
          | ok next => rfl
          | error code => rfl
          | raised exception => rfl

theorem run_keepLock {gvl : Bool} {native : Native σ Byte Byte ε} {resultOf : ε → ExtError}
    {destinationBufferLength fuel : Nat} {start : Buffers σ p} {env : Environment}
    {result : Exit (Buffers σ p) × Environment}
    (executed : run (bufferedTurn gvl native resultOf destinationBufferLength) fuel (start, env) =
      some result) (undisturbed : NotInterrupted result) :
    run (bufferedTurn true native resultOf destinationBufferLength) fuel
      (start, env.withoutDeliveries) = some (withoutDeliveries result) :=
  run_map withoutDeliveries withoutDeliveries NotInterrupted bufferedTurn_keepLock executed
    undisturbed

section Work

variable {fuel destinationBufferLength : Nat} {state : σ} {source : List Byte}
  {destinationValue : RString p} {gvl : Bool} {env after : Environment} {exit : Exit (Buffers σ p)}

theorem compress_keepLock {codec : CompressorCodec σ}
    (returned : compress codec fuel state source destinationValue destinationBufferLength gvl env =
      some (exit, after)) (undisturbed : exit ≠ .raised .interrupt) :
    compress codec fuel state source destinationValue destinationBufferLength true
      env.withoutDeliveries = some (exit, after.withoutDeliveries) := by
  unfold compress
  rcases compress_runs returned with ⟨feeding, abnormal⟩ | ⟨fed, fedEnv, feeding, onward⟩
  · rw [bufferedCompress, run_keepLock feeding undisturbed]
    cases exit with
    | ok buffers => exact absurd rfl (abnormal buffers)
    | error code => rfl
    | raised exception => rfl
  · rw [bufferedCompress, run_keepLock feeding (fun impossible => by cases impossible)]
    dsimp only [Prod.map_apply, id_eq]
    rcases onward with ⟨finishing, abnormal⟩ | ⟨flushed, flushedEnv, finishing, shrunk⟩
    · rw [bufferedCompress, run_keepLock finishing undisturbed]
      cases exit with
      | ok buffers => exact absurd rfl (abnormal buffers)
      | error code => rfl
      | raised exception => rfl
    · rw [bufferedCompress, run_keepLock finishing (fun impossible => by cases impossible)]
      dsimp only [Prod.map_apply, id_eq]
      rw [Buffers.shrink_withoutDeliveries, shrunk]
      rfl

theorem decompress_keepLock {codec : DecompressorCodec σ}
    (returned : decompress codec fuel state source destinationValue destinationBufferLength gvl
      env = some (exit, after)) (undisturbed : exit ≠ .raised .interrupt) :
    decompress codec fuel state source destinationValue destinationBufferLength true
      env.withoutDeliveries = some (exit, after.withoutDeliveries) := by
  unfold decompress
  rcases decompress_runs returned with ⟨executed, abnormal⟩ | ⟨buffers, middle, executed, shrunk⟩
  · rw [run_keepLock executed undisturbed]
    cases exit with
    | ok buffers => exact absurd rfl (abnormal buffers)
    | error code => rfl
    | raised exception => rfl
  · rw [run_keepLock executed (fun impossible => by cases impossible)]
    dsimp only [Prod.map_apply, id_eq]
    rw [Buffers.shrink_withoutDeliveries, shrunk]
    rfl

end Work

theorem lzwsExtCreateStringBuffer_withoutDeliveries (length : Nat) (env : Environment) :
    lzwsExtCreateStringBuffer (p := p) length env.withoutDeliveries =
      withoutDeliveries (lzwsExtCreateStringBuffer length env) := by
  unfold lzwsExtCreateStringBuffer
  by_cases fits : env.nextStringFailure.1 = false ∧ length ≤ p.maxStringLength
  · simp [fits]
  · simp [fits]

def StringRun.withoutDeliveries (run : StringRun p) : StringRun p :=
  { run with environment := run.environment.withoutDeliveries }

theorem releaseState_withoutDeliveries (ledger : StateLedger)
    (result : Exit (Buffers σ p) × Environment) :
    releaseState ledger (Ext.withoutDeliveries result) =
      (releaseState ledger result).withoutDeliveries := by
  rcases result with ⟨exit, env⟩
  cases exit with
  | ok buffers => rfl
  | error code => rfl
  | raised exception => rfl

/-- A string function that no interrupt ends does what it does with the lock kept. -/
theorem stringFunction_keepLock {arguments : Except Raised (RString p × Nat × Bool × ω)}
    {getInitialState : ω → Environment → Except ε σ × Environment} {errorOf : ε → Raised}
    {defaultDestinationBufferLength : Nat}
    {work : σ → List Byte → RString p → Nat → Bool → Environment →
      Option (Exit (Buffers σ p) × Environment)}
    {env : Environment} {run : StringRun p}
    (executed : stringFunction arguments getInitialState errorOf defaultDestinationBufferLength
      work env = some run)
    (undisturbed : run.outcome ≠ .error .interrupt)
    (obtains : ∀ options env, getInitialState options env.withoutDeliveries =
      withoutDeliveries (getInitialState options env))
    (works : ∀ {state source destinationValue length gvl env exit after},
      work state source destinationValue length gvl env = some (exit, after) →
        exit ≠ .raised .interrupt →
        work state source destinationValue length true env.withoutDeliveries =
          some (exit, after.withoutDeliveries)) :
    stringFunction ((fun (source, length, _, options) => (source, length, true, options)) <$>
        arguments) getInitialState errorOf defaultDestinationBufferLength work
        env.withoutDeliveries =
      some run.withoutDeliveries := by
  unfold stringFunction at executed ⊢
  cases arguments with
  | error exception =>
      cases executed
      rfl
  | ok values =>
      rcases values with ⟨source, length, gvl, options⟩
      simp only [Functor.map, Except.map] at executed ⊢
      rw [obtains]
      generalize getInitialState options env = result at executed ⊢
      rcases result with ⟨obtained, stateEnv⟩
      cases obtained with
      | error code =>
          cases executed
          rfl
      | ok state =>
          dsimp only [Prod.map_apply, id_eq] at executed ⊢
          rw [lzwsExtCreateStringBuffer_withoutDeliveries]
          generalize lzwsExtCreateStringBuffer _ stateEnv = result at executed ⊢
          rcases result with ⟨created, bufferEnv⟩
          cases created with
          | none =>
              cases executed
              rfl
          | some destinationValue =>
              obtain ⟨⟨exit, after⟩, worked, rfl⟩ := Option.map_eq_some_iff.mp executed
              have ended : exit ≠ .raised .interrupt := by
                rintro rfl
                exact undisturbed rfl
              dsimp only [Prod.map_apply, id_eq]
              rw [works worked ended, Option.map_some]
              exact congrArg some (releaseState_withoutDeliveries _ (exit, after))

theorem lzwsExtCompressString_keepLock {codec : CompressorCodec σ} {fuel : Nat}
    {sourceValue : Value p} {options : Argument p} {env : Environment} {run : StringRun p}
    (executed : lzwsExtCompressString codec fuel sourceValue options env = some run)
    (undisturbed : run.outcome ≠ .error .interrupt) :
    lzwsExtCompressString codec fuel sourceValue options.keepLock env.withoutDeliveries =
      some run.withoutDeliveries := by
  unfold lzwsExtCompressString compressStringArguments at *
  rw [stringArguments_keepLock (lzwsExtGetCompressorOptions_ignoresLock _)]
  exact stringFunction_keepLock executed undisturbed (fun _ _ => rfl) compress_keepLock

theorem lzwsExtDecompressString_keepLock {codec : DecompressorCodec σ} {fuel : Nat}
    {sourceValue : Value p} {options : Argument p} {env : Environment} {run : StringRun p}
    (executed : lzwsExtDecompressString codec fuel sourceValue options env = some run)
    (undisturbed : run.outcome ≠ .error .interrupt) :
    lzwsExtDecompressString codec fuel sourceValue options.keepLock env.withoutDeliveries =
      some run.withoutDeliveries := by
  unfold lzwsExtDecompressString decompressStringArguments at *
  rw [stringArguments_keepLock (lzwsExtGetDecompressorOptions_ignoresLock _)]
  exact stringFunction_keepLock executed undisturbed (fun _ _ => rfl) decompress_keepLock

/-! ## The file functions -/

def IoRun.withoutDeliveries (run : IoRun φ) : IoRun φ :=
  { run with environment := run.environment.withoutDeliveries }

variable {stdio : Library.StdioFile.Stdio φ Byte}

theorem ioFunction_keepLock {arguments : Except Raised (IoArguments φ ω)}
    {steps : List Byte → Nat → Nat → ω → List FileStep} {destination : FileArgument φ}
    {env : Environment}
    (undisturbed : (ioFunction p stdio arguments steps destination env).outcome ≠
      .error .interrupt) :
    ioFunction p stdio ((fun arguments => { arguments with gvl := true }) <$> arguments) steps
        destination env.withoutDeliveries =
      (ioFunction p stdio arguments steps destination env).withoutDeliveries := by
  unfold ioFunction at undisturbed ⊢
  cases arguments with
  | error exception => rfl
  | ok arguments =>
      have same := gvlWrap_withoutDeliveries p arguments.gvl env
      simp only [Functor.map, Except.map, wrapFileCall, gvlWrap_locked] at undisturbed ⊢
      rw [← same]
      generalize gvlWrap p arguments.gvl env = wrapped at undisturbed ⊢
      rcases wrapped with ⟨delivery, after⟩
      cases delivery with
      | before => exact absurd rfl undisturbed
      | after => exact absurd rfl undisturbed
      | nothing =>
          dsimp only
          split
          · rfl
          · rfl

theorem lzwsExtCompressIo_keepLock {codec : FileCodec} {source : FileArgument (List Byte)}
    {destination : FileArgument φ} {options : Argument p} {env : Environment}
    (undisturbed : (lzwsExtCompressIo stdio codec source destination options env).outcome ≠
      .error .interrupt) :
    lzwsExtCompressIo stdio codec source destination options.keepLock env.withoutDeliveries =
      (lzwsExtCompressIo stdio codec source destination options env).withoutDeliveries := by
  unfold lzwsExtCompressIo compressIoArguments at *
  rw [ioArguments_keepLock (lzwsExtGetCompressorOptions_ignoresLock _)]
  exact ioFunction_keepLock undisturbed

theorem lzwsExtDecompressIo_keepLock {codec : FileCodec} {source : FileArgument (List Byte)}
    {destination : FileArgument φ} {options : Argument p} {env : Environment}
    (undisturbed : (lzwsExtDecompressIo stdio codec source destination options env).outcome ≠
      .error .interrupt) :
    lzwsExtDecompressIo stdio codec source destination options.keepLock env.withoutDeliveries =
      (lzwsExtDecompressIo stdio codec source destination options env).withoutDeliveries := by
  unfold lzwsExtDecompressIo decompressIoArguments at *
  rw [ioArguments_keepLock (lzwsExtGetDecompressorOptions_ignoresLock _)]
  exact ioFunction_keepLock undisturbed

end RubyLzws.Ext
