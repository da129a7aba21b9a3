import RubyLzws.Ext.StringOutcome

/-!
# The string functions where memory suffices

In quiet surroundings a resize fails only beyond the longest Ruby string.  As long as the
output of the codec and one more window fit there, a loop is left as the codec decides.
-/

namespace RubyLzws.Ext

open Library.Transducer Library.Loop

variable {σ ε : Type} {p : Platform} {destinationBufferLength : Nat}

/-- Quiet surroundings did not decide how a function was left. -/
def DecidedByCodec {α : Type} : Exit α × Environment → Prop
  | (exit, after) => after.Quiet ∧ exit ≠ .error .allocateFailed ∧
      ∀ exception, exit ≠ .raised exception

/-! ## Resizing -/

theorem lzwsExtResizeStringBuffer_quiet (buffer : RString p) {length : Nat} {env : Environment}
    (quiet : env.Quiet) (fits : length ≤ p.maxStringLength) :
    ∃ resized after, lzwsExtResizeStringBuffer buffer length env = (.ok resized, after) ∧
      after.Quiet := by
  have later := env.later_nextArrayFailure
  have between := quiet.later later
  unfold lzwsExtResizeStringBuffer
  simp only [quiet.nextArrayFailure, between.nextStringFailure, fits, Bool.false_eq_true,
    and_self, ↓reduceIte, ↓reduceDIte]
  exact ⟨_, _, rfl, between.later (Environment.later_nextStringFailure _)⟩

theorem increaseDestinationBuffer_quiet {buffers : Buffers σ p} {env : Environment}
    (quiet : env.Quiet)
    (room : buffers.destinationLength + destinationBufferLength ≤ p.maxStringLength) :
    DecidedByCodec (increaseDestinationBuffer destinationBufferLength buffers env) := by
  have size := p.sizeModulus_eq
  have sum : p.sizeAdd buffers.destinationLength destinationBufferLength =
      buffers.destinationLength + destinationBufferLength := p.sizeAdd_eq (by omega)
  unfold increaseDestinationBuffer
  split
  · exact ⟨quiet, by simp, by simp⟩
  · rw [sum]
    obtain ⟨resized, after, same, still⟩ :=
      lzwsExtResizeStringBuffer_quiet buffers.destinationValue quiet room
    rw [same]
    exact ⟨still, by simp, by simp⟩

/-- The last resize only cuts the string down. -/
theorem Buffers.shrink_quiet {buffers : Buffers σ p} {env : Environment}
    (window : buffers.WindowIsTail destinationBufferLength) (quiet : env.Quiet) :
    DecidedByCodec (buffers.shrink env) := by
  have inside := buffers.destinationValue.length_le
  have tail := window.tail
  rw [RString.length] at tail
  have fits : buffers.destinationLength ≤ p.maxStringLength := by omega
  obtain ⟨resized, after, same, still⟩ :=
    lzwsExtResizeStringBuffer_quiet buffers.destinationValue quiet fits
  unfold Buffers.shrink
  rw [same]
  exact ⟨still, by simp, by simp⟩

/-! ## Loops -/

section Loop

variable {native : Native σ Byte Byte ε} {resultOf : ε → ExtError} {gvl : Bool}
  {start : Buffers σ p}

/-- What one turn does in quiet surroundings with room for another window. -/
def TurnDecided : Turn (Buffers σ p × Environment) (Exit (Buffers σ p) × Environment) → Prop
  | .again (_, after) => after.Quiet
  | .leave result => DecidedByCodec result

theorem bufferedTurn_quiet (resources : ∀ code, resultOf code ≠ .allocateFailed)
    {buffers : Buffers σ p} {env : Environment} (quiet : env.Quiet)
    (room : (native buffers.state buffers.remainingSource
        buffers.remainingDestinationBufferLength).status = .needsMore →
      (buffers.counted native).destinationLength + destinationBufferLength ≤ p.maxStringLength) :
    TurnDecided (bufferedTurn gvl native resultOf destinationBufferLength (buffers, env)) := by
  have silent := quiet.gvlWrap p gvl
  have still := quiet.later (later_gvlWrap p gvl env)
  rw [bufferedTurn]
  generalize gvlWrap p gvl env = answer at silent still ⊢
  rcases answer with ⟨delivery, middle⟩
  cases silent
  dsimp only at still ⊢
  cases status : (native buffers.state buffers.remainingSource
      buffers.remainingDestinationBufferLength).status with
  | error code => exact ⟨still, fun same => resources code (Exit.error.inj same), by simp⟩
  | ok => exact ⟨still, by simp, by simp⟩
  | needsMore =>
      have increased := increaseDestinationBuffer_quiet still (room status)
      dsimp only
      change DecidedByCodec (increaseDestinationBuffer destinationBufferLength
        ((buffers.call native).count buffers.remainingDestinationBufferLength) middle) at increased
      generalize increaseDestinationBuffer destinationBufferLength _ middle = result
        at increased ⊢
      rcases result with ⟨exit, after⟩
      cases exit with
      | ok next => exact increased.1
      | error code => exact ⟨increased.1, by simpa using increased.2.1, by simp⟩
      | raised exception => exact absurd rfl (increased.2.2 exception)

theorem Buffers.WindowIsTail.output_length {buffers : Buffers σ p}
    (window : buffers.WindowIsTail destinationBufferLength) :
    buffers.output.length = buffers.destinationLength := by
  have tail := window.tail
  rw [RString.length] at tail
  rw [Buffers.output, List.length_take]
  omega

/-- A loop that has room for all that its codec may emit is left as the codec decides. -/
theorem bufferedLoop_quiet (resources : ∀ code, resultOf code ≠ .allocateFailed)
    {env : Environment} {result : Exit (Buffers σ p) × Environment}
    (window : start.WindowIsTail destinationBufferLength)
    (small : destinationBufferLength ≤ p.maxStringLength) (quiet : env.Quiet)
    (room : ∀ emitted, Emits native .whole start.state start.remainingSource emitted →
      start.destinationLength + emitted.length + destinationBufferLength ≤ p.maxStringLength)
    (leaves : Leaves (bufferedTurn gvl native resultOf destinationBufferLength) (start, env)
      result) : DecidedByCodec result := by
  have turns : ∀ buffers emitted env,
      LoopInvariant native destinationBufferLength start buffers emitted → env.Quiet →
        TurnDecided (bufferedTurn gvl native resultOf destinationBufferLength (buffers, env)) := by
    intro buffers emitted env invariant quiet
    refine bufferedTurn_quiet resources quiet fun status => ?_
    have counted : (buffers.counted native).WindowIsTail destinationBufferLength :=
      invariant.window.counted
    have bound := room _ ⟨_, _, invariant.session.call_all _ (.inl status)⟩
    rw [← counted.output_length, invariant.window.counted_output, invariant.output,
      List.append_assoc, List.length_append, window.output_length]
    exact bound
  refine leaves.invariant
    (fun state => (∃ emitted, LoopInvariant native destinationBufferLength start state.1 emitted) ∧
      state.2.Quiet) DecidedByCodec ?_ ?_ ⟨⟨[], .start, (List.append_nil _).symm, window⟩, quiet⟩
  · rintro ⟨buffers, env⟩ ⟨next, after⟩ ⟨⟨emitted, invariant⟩, quiet⟩ turned
    have decided := turns buffers emitted env invariant quiet
    rw [turned] at decided
    exact ⟨⟨_, invariant.again small turned⟩, decided⟩
  · rintro ⟨buffers, env⟩ result ⟨⟨emitted, invariant⟩, quiet⟩ turned
    have decided := turns buffers emitted env invariant quiet
    rw [turned] at decided
    exact decided

end Loop

/-! ## Both functions -/

section Functions

variable {state : σ} {source : List Byte} {destinationValue : RString p} {gvl : Bool}
  {env after : Environment} {fuel : Nat} {exit : Exit (Buffers σ p)}

/-- No session of the pair emits more than fits beside one more window. -/
def RoomFor (p : Platform) (emits : List Byte → Prop) (destinationBufferLength : Nat) : Prop :=
  ∀ emitted, emits emitted → emitted.length + destinationBufferLength ≤ p.maxStringLength

theorem compress_quiet {codec : CompressorCodec σ} (law : ConsumesAll codec.compress)
    (quiet : env.Quiet)
    (room : RoomFor p (PairSession codec.compress codec.finishNative .whole state source)
      destinationValue.length)
    (returned : compress codec fuel state source destinationValue destinationValue.length gvl env =
      some (exit, after)) : DecidedByCodec (exit, after) := by
  have small : destinationValue.length ≤ p.maxStringLength := destinationValue.length_le
  have window := Buffers.start_window state source destinationValue
  have feeds : ∀ {result}, run (bufferedCompress gvl codec.compress destinationValue.length) fuel
      (.start state source destinationValue destinationValue.length, env) = some result →
        DecidedByCodec result := by
    intro result feeding
    refine bufferedLoop_quiet (by simp) window small quiet ?_ (.of_run feeding)
    rintro emitted ⟨_, _, session⟩
    simpa [Buffers.start] using room emitted (.feeding session)
  rcases compress_runs returned with ⟨feeding, _⟩ | ⟨fed, fedEnv, feeding, onward⟩
  · exact feeds feeding
  · obtain ⟨fedQuiet, _⟩ := feeds feeding
    cases bufferedLoop_result window small (.of_run feeding) with
    | @ok _ fedEmitted fedEnds fedOutput fedWindow =>
        have nothingLeft : fed.remainingSource = [] := law.rest_eq_nil fedEnds
        rw [nothingLeft] at fedEnds
        have finishes : ∀ {result},
            run (bufferedCompress gvl codec.finishNative destinationValue.length) fuel
              (fed, fedEnv) = some result → DecidedByCodec result := by
          intro result finishing
          refine bufferedLoop_quiet (by simp) fedWindow small fedQuiet ?_ (.of_run finishing)
          rintro emitted ⟨_, _, session⟩
          rw [nothingLeft] at session
          have bound := room _ (.finishing fedEnds session)
          rw [← fedWindow.output_length, fedOutput]
          simpa using bound
        rcases onward with ⟨finishing, _⟩ | ⟨flushed, flushedEnv, finishing, shrunk⟩
        · exact finishes finishing
        · obtain ⟨flushedQuiet, _⟩ := finishes finishing
          cases bufferedLoop_result fedWindow small (.of_run finishing) with
          | ok _ _ flushedWindow =>
              rw [← shrunk]
              exact Buffers.shrink_quiet flushedWindow flushedQuiet

theorem decompress_quiet {codec : DecompressorCodec σ} (quiet : env.Quiet)
    (room : RoomFor p (Emits codec.decompress .whole state source) destinationValue.length)
    (returned : decompress codec fuel state source destinationValue destinationValue.length gvl
      env = some (exit, after)) : DecidedByCodec (exit, after) := by
  have small : destinationValue.length ≤ p.maxStringLength := destinationValue.length_le
  have window := Buffers.start_window state source destinationValue
  have loops : ∀ {result}, run (bufferedTurn gvl codec.decompress decompressResult
      destinationValue.length) fuel
      (.start state source destinationValue destinationValue.length, env) = some result →
        DecidedByCodec result := by
    intro result executed
    refine bufferedLoop_quiet (decompressResult_ne (by decide)) window small quiet ?_
      (.of_run executed)
    rintro emitted session
    simpa [Buffers.start] using room emitted session
  rcases decompress_runs returned with ⟨executed, _⟩ | ⟨buffers, middle, executed, shrunk⟩
  · exact loops executed
  · obtain ⟨middleQuiet, _⟩ := loops executed
    cases bufferedLoop_result window small (.of_run executed) with
    | ok _ _ tail =>
        rw [← shrunk]
        exact Buffers.shrink_quiet tail middleQuiet

end Functions

/-! ## Around the loops -/

theorem obtainState_quiet {env : Environment} (quiet : env.Quiet) (failure : ε)
    (initial : Except ε σ) :
    obtainState failure initial env = (initial, env.nextNativeFailure.2) := by
  unfold obtainState
  simp [quiet.nextNativeFailure]

theorem lzwsExtCreateStringBuffer_quiet {length : Nat} {env : Environment} (quiet : env.Quiet)
    (fits : length ≤ p.maxStringLength) :
    ∃ (created : RString p) (after : Environment),
      lzwsExtCreateStringBuffer length env = (some created, after) ∧ after.Quiet := by
  unfold lzwsExtCreateStringBuffer
  simp only [quiet.nextStringFailure, fits, and_self, ↓reduceDIte]
  exact ⟨_, _, rfl, quiet.later env.later_nextStringFailure⟩

/-- The length of the first window, 0 being replaced by the default of the library. -/
def windowLength (length defaultDestinationBufferLength : Nat) : Nat :=
  if length = 0 then defaultDestinationBufferLength else length

/-- Once the options are resolved, only `work` remains. -/
theorem stringFunction_quiet {ω : Type} {arguments : Except Raised (RString p × Nat × Bool × ω)}
    {initial : ω → Except ε σ} {failure : ε} {errorOf : ε → Raised}
    {defaultDestinationBufferLength length : Nat} {source : RString p}
    {gvl : Bool} {options : ω} {state : σ} {env : Environment}
    (quiet : env.Quiet) (resolved : arguments = .ok (source, length, gvl, options))
    (started : initial options = .ok state)
    (fits : windowLength length defaultDestinationBufferLength ≤ p.maxStringLength) :
    ∃ destinationValue after,
      destinationValue.length = windowLength length defaultDestinationBufferLength ∧
      after.Quiet ∧ ∀ work, stringFunction arguments
          (fun options => obtainState failure (initial options)) errorOf
          defaultDestinationBufferLength work env =
        (work state source.bytes destinationValue destinationValue.length gvl after).map
          (releaseState StateLedger.empty.acquire) := by
  obtain ⟨created, after, same, still⟩ :=
    lzwsExtCreateStringBuffer_quiet (quiet.later env.later_nextNativeFailure) fits
  have size := lzwsExtCreateStringBuffer_length same
  refine ⟨created, after, size, still, fun work => ?_⟩
  unfold stringFunction
  rw [resolved]
  dsimp only
  rw [obtainState_quiet quiet, started]
  dsimp only
  rw [← windowLength, same, size]

end RubyLzws.Ext
