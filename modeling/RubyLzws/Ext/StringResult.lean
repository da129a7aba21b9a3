import RubyLzws.Ext.StringLoop

/-!
# What `compress` and `decompress` return

The run lemma of the loops, composed: a returned string is exactly what complete
codec sessions emitted, an error code names why the codec stopped, and a jump
comes from the surroundings.  Both functions return for every codec.
-/

namespace RubyLzws.Ext

open Library.Transducer Library.Loop

variable {σ : Type} {p : Platform}

/-- The window at the start of both functions is the whole string. -/
theorem Buffers.start_window (state : σ) (source : List Byte) (destinationValue : RString p) :
    (Buffers.start state source destinationValue destinationValue.length).WindowIsTail
      destinationValue.length :=
  ⟨Nat.zero_add _, Nat.le_refl _⟩

@[simp]
theorem Buffers.start_output (state : σ) (source : List Byte) (destinationValue : RString p)
    (destinationBufferLength : Nat) :
    (Buffers.start state source destinationValue destinationBufferLength).output = [] :=
  List.take_zero

/-- The ways in which the last resize can be left. -/
inductive Shrink (before : Buffers σ p) : Exit (Buffers σ p) → Prop where
  | ok {after : Buffers σ p} (bytes : after.destinationValue.bytes = before.output)
      (remainingSource : after.remainingSource = before.remainingSource)
      (state : after.state = before.state) : Shrink before (.ok after)
  | noMemory : Shrink before (.error .allocateFailed)
  | raised : Shrink before (.raised .noMemoryError)

theorem Buffers.shrink_cases {before : Buffers σ p} {env after : Environment}
    {exit : Exit (Buffers σ p)} {destinationBufferLength : Nat}
    (window : before.WindowIsTail destinationBufferLength)
    (left : before.shrink env = (exit, after)) : Shrink before exit := by
  unfold Buffers.shrink lzwsExtResizeStringBuffer at left
  by_cases raises : env.nextArrayFailure.1
  · simp only [raises, ↓reduceIte] at left
    cases left
    exact .raised
  · simp only [raises, Bool.false_eq_true, ↓reduceIte] at left
    by_cases fits : env.nextArrayFailure.2.nextStringFailure.1 = false ∧
        before.destinationLength ≤ p.maxStringLength
    · simp only [fits, and_self, ↓reduceDIte] at left
      cases left
      have shorter : before.destinationLength ≤ before.destinationValue.length := by
        have tail := window.tail
        omega
      exact .ok (RString.resize_bytes_of_le _ _ _ fits.2 shorter) rfl rfl
    · simp only [fits, ↓reduceDIte] at left
      cases left
      exact .noMemory

/-- The bytes of the string, where a run has ended by returning 0. -/
def returnedBytes : Option (Exit (Buffers σ p) × Environment) → Option (List Byte)
  | some (.ok buffers, _) => some buffers.destinationValue.bytes
  | _ => none

theorem exists_of_returnedBytes {run : Option (Exit (Buffers σ p) × Environment)}
    {bytes : List Byte} (returned : returnedBytes run = some bytes) :
    ∃ buffers after, run = some (.ok buffers, after) ∧ buffers.destinationValue.bytes = bytes := by
  unfold returnedBytes at returned
  split at returned
  · exact ⟨_, _, rfl, Option.some.inj returned⟩
  · cases returned

/-! ## Compress -/

/-- What is known where `compress` is left. -/
inductive CompressResult (codec : CompressorCodec σ) (destinationBufferLength : Nat) (state : σ)
    (source : List Byte) : Exit (Buffers σ p) → Prop where
  | ok {buffers : Buffers σ p} {middle last : σ} {fed flushed : List Byte}
      (feeding : Ends codec.compress .whole state source fed (.finished middle []))
      (finishing : Ends codec.finishNative .whole middle [] flushed (.finished last []))
      (bytes : buffers.destinationValue.bytes = fed ++ flushed) :
      CompressResult codec destinationBufferLength state source (.ok buffers)
  | failed {out : List Byte} {code : CompressorError}
      (ends : PairEnds codec.compress codec.finishNative .whole state source out (.failed code)) :
      CompressResult codec destinationBufferLength state source (.error .unexpected)
  | stalled {native : Native σ Byte Byte CompressorError} {stuck : σ} {rest : List Byte}
      (called : native = codec.compress ∨ native = codec.finishNative)
      (status : (native stuck rest destinationBufferLength).status = .needsMore)
      (nothing : (native stuck rest destinationBufferLength).written = []) :
      CompressResult codec destinationBufferLength state source
        (.error .notEnoughDestinationBuffer)
  | noMemory :
      CompressResult codec destinationBufferLength state source (.error .allocateFailed)
  | raised {exception : Raised} (outside : exception.FromEnvironment) :
      CompressResult codec destinationBufferLength state source (.raised exception)

section Compress

variable {codec : CompressorCodec σ} {state : σ} {source : List Byte}
  {destinationValue : RString p} {gvl : Bool} {env after : Environment}

/-- An exit that does not come with final variables. -/
def Exit.Abnormal {α : Type} (exit : Exit α) : Prop := ∀ value, exit ≠ .ok value

/-- `compress` is two loops and a resize; the first of them that fails decides. -/
theorem compress_runs {fuel destinationBufferLength : Nat} {exit : Exit (Buffers σ p)}
    (returned : compress codec fuel state source destinationValue destinationBufferLength gvl env =
      some (exit, after)) :
    (run (bufferedCompress gvl codec.compress destinationBufferLength) fuel
        (.start state source destinationValue destinationBufferLength, env) = some (exit, after) ∧
      exit.Abnormal) ∨
    ∃ fed fedEnv, run (bufferedCompress gvl codec.compress destinationBufferLength) fuel
        (.start state source destinationValue destinationBufferLength, env) =
          some (.ok fed, fedEnv) ∧
      ((run (bufferedCompress gvl codec.finishNative destinationBufferLength) fuel
          (fed, fedEnv) = some (exit, after) ∧ exit.Abnormal) ∨
        ∃ flushed flushedEnv,
          run (bufferedCompress gvl codec.finishNative destinationBufferLength) fuel
            (fed, fedEnv) = some (.ok flushed, flushedEnv) ∧
          flushed.shrink flushedEnv = (exit, after)) := by
  unfold compress at returned
  split at returned
  · cases returned
  · next fed fedEnv feeding =>
      refine .inr ⟨fed, fedEnv, feeding, ?_⟩
      split at returned
      · cases returned
      · next flushed flushedEnv finishing =>
          exact .inr ⟨flushed, flushedEnv, finishing, Option.some.inj returned⟩
      · next code flushedEnv finishing =>
          cases returned
          exact .inl ⟨finishing, fun _ impossible => by cases impossible⟩
      · next exception flushedEnv finishing =>
          cases returned
          exact .inl ⟨finishing, fun _ impossible => by cases impossible⟩
  · next code fedEnv feeding =>
      cases returned
      exact .inl ⟨feeding, fun _ impossible => by cases impossible⟩
  · next exception fedEnv feeding =>
      cases returned
      exact .inl ⟨feeding, fun _ impossible => by cases impossible⟩

/-- **Every way out of `compress`.** -/
theorem compress_result (law : ConsumesAll codec.compress) {fuel : Nat}
    {exit : Exit (Buffers σ p)}
    (returned : compress codec fuel state source destinationValue destinationValue.length gvl env =
      some (exit, after)) :
    CompressResult codec destinationValue.length state source exit := by
  have small : destinationValue.length ≤ p.maxStringLength := destinationValue.length_le
  have window := Buffers.start_window state source destinationValue
  rcases compress_runs returned with ⟨feeding, abnormal⟩ | ⟨fed, fedEnv, feeding, onward⟩
  · cases bufferedLoop_result window small (.of_run feeding) with
    | ok => exact absurd rfl (abnormal _)
    | failed ends => exact .failed (.feedFailed ends)
    | stalled session status nothing => exact .stalled (.inl rfl) status nothing
    | noMemory => exact .noMemory
    | raised outside => exact .raised outside
  · cases bufferedLoop_result window small (.of_run feeding) with
    | ok fedEnds fedOutput fedWindow =>
        have nothingLeft : fed.remainingSource = [] := law.rest_eq_nil fedEnds
        rw [nothingLeft] at fedEnds
        rw [Buffers.start_output, List.nil_append] at fedOutput
        rcases onward with ⟨finishing, abnormal⟩ | ⟨flushed, flushedEnv, finishing, shrunk⟩
        · cases bufferedLoop_result fedWindow small (.of_run finishing) with
          | ok => exact absurd rfl (abnormal _)
          | failed ends =>
              rw [nothingLeft] at ends
              exact .failed (.finished fedEnds ends)
          | stalled session status nothing => exact .stalled (.inr rfl) status nothing
          | noMemory => exact .noMemory
          | raised outside => exact .raised outside
        · cases bufferedLoop_result fedWindow small (.of_run finishing) with
          | ok flushedEnds flushedOutput flushedWindow =>
              rw [nothingLeft] at flushedEnds
              cases Buffers.shrink_cases flushedWindow shrunk with
              | ok bytes _ _ =>
                  have allFlushed := flushedEnds.rest_nil
                  rw [allFlushed] at flushedEnds
                  refine .ok fedEnds flushedEnds ?_
                  rw [bytes, flushedOutput, fedOutput]
              | noMemory => exact .noMemory
              | raised => exact .raised (.inr rfl)

/-- **`compress` returns, whatever the codec answers.** -/
theorem compress_returns (state : σ) (source : List Byte) (destinationValue : RString p)
    (gvl : Bool) (env : Environment) :
    ∃ fuel result,
      compress codec fuel state source destinationValue destinationValue.length gvl env =
        some result := by
  have small : destinationValue.length ≤ p.maxStringLength := destinationValue.length_le
  have window := Buffers.start_window state source destinationValue
  obtain ⟨⟨exit, fedEnv⟩, feeding⟩ := bufferedLoop_leaves codec.compress
    (fun _ => .unexpected) gvl env window small
  obtain ⟨fedBound, fedRun⟩ := feeding.run_eventually
  cases exit with
  | ok fed =>
      cases bufferedLoop_result window small feeding with
      | ok _ _ fedWindow =>
          obtain ⟨⟨exit, flushedEnv⟩, finishing⟩ :=
            bufferedLoop_leaves codec.finishNative (fun _ => .unexpected) gvl fedEnv fedWindow
              small
          obtain ⟨flushedBound, flushedRun⟩ := finishing.run_eventually
          have first := fedRun (max fedBound flushedBound) (Nat.le_max_left _ _)
          have second := flushedRun (max fedBound flushedBound) (Nat.le_max_right _ _)
          refine ⟨max fedBound flushedBound, ?_⟩
          unfold compress bufferedCompress
          rw [first]
          dsimp only
          rw [second]
          cases exit with
          | ok flushed => exact ⟨_, rfl⟩
          | error code => exact ⟨_, rfl⟩
          | raised exception => exact ⟨_, rfl⟩
  | error code =>
      refine ⟨fedBound, (.error code, fedEnv), ?_⟩
      unfold compress bufferedCompress
      rw [fedRun fedBound (Nat.le_refl _)]
  | raised exception =>
      refine ⟨fedBound, (.raised exception, fedEnv), ?_⟩
      unfold compress bufferedCompress
      rw [fedRun fedBound (Nat.le_refl _)]

end Compress

/-! ## Decompress -/

/-- What is known where `decompress` is left. -/
inductive DecompressResult (codec : DecompressorCodec σ) (destinationBufferLength : Nat)
    (state : σ) (source : List Byte) : Exit (Buffers σ p) → Prop where
  | ok {buffers : Buffers σ p}
      (ends : Ends codec.decompress .whole state source buffers.destinationValue.bytes
        (.finished buffers.state buffers.remainingSource)) :
      DecompressResult codec destinationBufferLength state source (.ok buffers)
  | failed {out : List Byte} {code : DecompressorError}
      (ends : Ends codec.decompress .whole state source out (.failed code)) :
      DecompressResult codec destinationBufferLength state source (.error (decompressResult code))
  | stalled {out : List Byte} {stuck : σ} {rest : List Byte}
      (session : Session codec.decompress .whole state source out stuck rest)
      (status : (codec.decompress stuck rest destinationBufferLength).status = .needsMore)
      (nothing : (codec.decompress stuck rest destinationBufferLength).written = []) :
      DecompressResult codec destinationBufferLength state source
        (.error .notEnoughDestinationBuffer)
  | noMemory :
      DecompressResult codec destinationBufferLength state source (.error .allocateFailed)
  | raised {exception : Raised} (outside : exception.FromEnvironment) :
      DecompressResult codec destinationBufferLength state source (.raised exception)

section Decompress

variable {codec : DecompressorCodec σ} {state : σ} {source : List Byte}
  {destinationValue : RString p} {gvl : Bool} {env after : Environment}

/-- `decompress` is one loop and a resize. -/
theorem decompress_runs {fuel destinationBufferLength : Nat} {exit : Exit (Buffers σ p)}
    (returned : decompress codec fuel state source destinationValue destinationBufferLength gvl
      env = some (exit, after)) :
    (run (bufferedTurn gvl codec.decompress decompressResult destinationBufferLength) fuel
        (.start state source destinationValue destinationBufferLength, env) = some (exit, after) ∧
      exit.Abnormal) ∨
    ∃ buffers middle,
      run (bufferedTurn gvl codec.decompress decompressResult destinationBufferLength) fuel
        (.start state source destinationValue destinationBufferLength, env) =
          some (.ok buffers, middle) ∧
      buffers.shrink middle = (exit, after) := by
  unfold decompress at returned
  split at returned
  · cases returned
  · next buffers middle executed =>
      exact .inr ⟨buffers, middle, executed, Option.some.inj returned⟩
  · next code middle executed =>
      cases returned
      exact .inl ⟨executed, fun _ impossible => by cases impossible⟩
  · next exception middle executed =>
      cases returned
      exact .inl ⟨executed, fun _ impossible => by cases impossible⟩

/-- **Every way out of `decompress`.** -/
theorem decompress_result {fuel : Nat} {exit : Exit (Buffers σ p)}
    (returned : decompress codec fuel state source destinationValue destinationValue.length gvl
      env = some (exit, after)) :
    DecompressResult codec destinationValue.length state source exit := by
  have small : destinationValue.length ≤ p.maxStringLength := destinationValue.length_le
  have window := Buffers.start_window state source destinationValue
  rcases decompress_runs returned with ⟨executed, abnormal⟩ | ⟨buffers, middle, executed, shrunk⟩
  · cases bufferedLoop_result window small (.of_run executed) with
    | ok => exact absurd rfl (abnormal _)
    | failed ends => exact .failed ends
    | stalled session status nothing => exact .stalled session status nothing
    | noMemory => exact .noMemory
    | raised outside => exact .raised outside
  · cases bufferedLoop_result window small (.of_run executed) with
    | ok ends output tail =>
        cases Buffers.shrink_cases tail shrunk with
        | ok bytes remainingSource sameState =>
            rw [Buffers.start_output, List.nil_append] at output
            rw [← output, ← bytes, ← sameState, ← remainingSource] at ends
            exact .ok ends
        | noMemory => exact .noMemory
        | raised => exact .raised (.inr rfl)

/-- **`decompress` returns, whatever the codec answers.** -/
theorem decompress_returns (state : σ) (source : List Byte) (destinationValue : RString p)
    (gvl : Bool) (env : Environment) :
    ∃ fuel result,
      decompress codec fuel state source destinationValue destinationValue.length gvl env =
        some result := by
  have small : destinationValue.length ≤ p.maxStringLength := destinationValue.length_le
  obtain ⟨⟨exit, middle⟩, leaves⟩ := bufferedLoop_leaves codec.decompress
    decompressResult gvl env (Buffers.start_window state source destinationValue) small
  obtain ⟨fuel, executed⟩ := leaves.exists_run
  refine ⟨fuel, ?_⟩
  unfold decompress
  rw [executed]
  cases exit with
  | ok buffers => exact ⟨_, rfl⟩
  | error code => exact ⟨_, rfl⟩
  | raised exception => exact ⟨_, rfl⟩

end Decompress

end RubyLzws.Ext
