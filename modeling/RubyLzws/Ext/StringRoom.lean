import RubyLzws.Ext.StringCalls
import RubyLzws.Ext.StringMemory

/-!
# How much the turns write

The string grows with what the codec writes, by one window at a time.  So a run in quiet
surroundings runs out of memory only where what it has written and one more window exceed
the longest Ruby string.
-/

namespace RubyLzws.Ext

open Library.Transducer Library.Loop

variable {σ ε : Type} {p : Platform}

theorem bytesWritten_append (gvl : Bool) (first second : List (LoopTurn σ ε p)) :
    bytesWritten (codecCalls gvl (first ++ second)) =
      bytesWritten (codecCalls gvl first) + bytesWritten (codecCalls gvl second) := by
  rw [codecCalls_append, bytesWritten, List.map_append, List.sum_append]
  rfl

/-- What a turn writes, if it comes to call the codec. -/
def weight (gvl : Bool) (turn : LoopTurn σ ε p) : Nat :=
  if turn.calls gvl then turn.reply.written.length else 0

theorem bytesWritten_codecCalls (gvl : Bool) (turns : List (LoopTurn σ ε p)) :
    bytesWritten (codecCalls gvl turns) = (turns.map (weight gvl)).sum := by
  induction turns with
  | nil => rfl
  | cons turn turns ih =>
      rw [List.map_cons, List.sum_cons, ← ih]
      by_cases called : turn.calls gvl
      · simp [codecCalls, bytesWritten, weight, called]
      · simp [codecCalls, bytesWritten, weight, called]

/-! ## One loop -/

section Loop

variable {gvl : Bool} {native : Native σ Byte Byte ε} {resultOf : ε → ExtError}
  {destinationBufferLength fuel : Nat} {start : Buffers σ p} {env : Environment}

/-- No turn begins with more in the string than what the loop found there and writes. -/
theorem loop_grows (window : start.WindowIsTail destinationBufferLength)
    (small : destinationBufferLength ≤ p.maxStringLength) :
    ∀ turn ∈ loopTurns gvl native resultOf destinationBufferLength fuel (start, env),
      turn.buffers.destinationLength + weight gvl turn ≤ start.destinationLength +
        bytesWritten (codecCalls gvl
          (loopTurns gvl native resultOf destinationBufferLength fuel (start, env))) := by
  have bound : ∀ state ∈ visited (bufferedTurn gvl native resultOf destinationBufferLength) fuel
      (start, env), state.1.destinationLength + weight gvl ⟨native, state.1, state.2⟩ ≤
        start.destinationLength +
          ((visited (bufferedTurn gvl native resultOf destinationBufferLength) fuel
            (start, env)).map fun state => weight gvl ⟨native, state.1, state.2⟩).sum := by
    apply visited_measure_le
      (fun state : Buffers σ p × Environment => state.1.WindowIsTail destinationBufferLength)
      (fun state => state.1.destinationLength) _ _ window
    rintro ⟨buffers, env⟩ ⟨next, after⟩ tail turned
    obtain ⟨_, _, grown⟩ := bufferedTurn_again tail small turned
    have wrote : weight gvl ⟨native, buffers, env⟩ = (buffers.reply native).written.length :=
      if_pos (calls_of_turn fun left impossible => by
        rw [turned] at impossible
        cases impossible)
    refine ⟨grown.window, ?_⟩
    rw [wrote, grown.destinationLength, tail.counted_destinationLength]
  intro turn member
  obtain ⟨state, reached, rfl⟩ := List.mem_map.mp member
  rw [bytesWritten_codecCalls, loopTurns, List.map_map]
  exact bound state reached

/-- A loop that ends with 0 leaves no more in the string than what it found there and wrote. -/
theorem loop_leaves {fed : Buffers σ p} {after : Environment}
    (window : start.WindowIsTail destinationBufferLength)
    (small : destinationBufferLength ≤ p.maxStringLength)
    (executed : run (bufferedTurn gvl native resultOf destinationBufferLength) fuel (start, env) =
      some (.ok fed, after)) :
    fed.destinationLength ≤ start.destinationLength + bytesWritten (codecCalls gvl
      (loopTurns gvl native resultOf destinationBufferLength fuel (start, env))) := by
  obtain ⟨earlier, last, lastEnv, whole, left⟩ := loopTurns_of_run executed
  have member : (⟨native, last, lastEnv⟩ : LoopTurn σ ε p) ∈
      loopTurns gvl native resultOf destinationBufferLength fuel (start, env) := by
    rw [whole]
    exact List.mem_append_right _ List.mem_cons_self
  have grows := loop_grows window small _ member
  have tail := (loopTurns_window window small _ member).2.1
  have wrote : weight gvl ⟨native, last, lastEnv⟩ = (last.reply native).written.length :=
    if_pos (calls_of_turn fun other impossible => by
      rw [left] at impossible
      cases impossible)
  have result := bufferedTurn_result native resultOf gvl lastEnv tail small
  rw [left] at result
  cases result with
  | done =>
      rw [tail.counted_destinationLength, ← wrote]
      exact grows

/-- Quiet surroundings are still quiet where a turn begins. -/
theorem loopTurns_quiet (resources : ∀ code, resultOf code ≠ .allocateFailed)
    (window : start.WindowIsTail destinationBufferLength)
    (small : destinationBufferLength ≤ p.maxStringLength) (quiet : env.Quiet) :
    ∀ turn ∈ loopTurns gvl native resultOf destinationBufferLength fuel (start, env),
      turn.environment.Quiet := by
  intro turn member
  obtain ⟨state, reached, rfl⟩ := List.mem_map.mp member
  have kept : state.1.WindowIsTail destinationBufferLength ∧ state.2.Quiet := by
    refine visited_invariant (fun state : Buffers σ p × Environment =>
      state.1.WindowIsTail destinationBufferLength ∧ state.2.Quiet) ?_ ⟨window, quiet⟩ _ reached
    rintro ⟨buffers, env⟩ ⟨next, after⟩ ⟨tail, quiet⟩ turned
    obtain ⟨_, _, grown⟩ := bufferedTurn_again tail small turned
    -- The resize has succeeded, so that there was room for it.
    have longest : next.destinationValue.length ≤ p.maxStringLength :=
      next.destinationValue.length_le
    rw [grown.length] at longest
    have decided : TurnDecided (bufferedTurn gvl native resultOf destinationBufferLength
        (buffers, env)) := bufferedTurn_quiet resources quiet fun _ => longest
    rw [turned] at decided
    exact ⟨grown.window, decided⟩
  exact kept.2

/-- In quiet surroundings every turn calls the codec. -/
theorem weight_of_quiet {turn : LoopTurn σ ε p} (quiet : turn.environment.Quiet) :
    weight gvl turn = turn.reply.written.length := by
  refine if_pos ?_
  unfold LoopTurn.calls
  rw [quiet.gvlWrap p gvl]
  rfl

/-- A loop that has room for what it has written and a window is left as the codec decides. -/
theorem loop_room {exit : Exit (Buffers σ p)} {after : Environment}
    (resources : ∀ code, resultOf code ≠ .allocateFailed)
    (window : start.WindowIsTail destinationBufferLength)
    (small : destinationBufferLength ≤ p.maxStringLength) (quiet : env.Quiet)
    (executed : run (bufferedTurn gvl native resultOf destinationBufferLength) fuel (start, env) =
      some (exit, after))
    (room : start.destinationLength + bytesWritten (codecCalls gvl
        (loopTurns gvl native resultOf destinationBufferLength fuel (start, env))) +
      destinationBufferLength ≤ p.maxStringLength) : DecidedByCodec (exit, after) := by
  obtain ⟨earlier, last, lastEnv, whole, left⟩ := loopTurns_of_run executed
  have member : (⟨native, last, lastEnv⟩ : LoopTurn σ ε p) ∈
      loopTurns gvl native resultOf destinationBufferLength fuel (start, env) := by
    rw [whole]
    exact List.mem_append_right _ List.mem_cons_self
  have tail := (loopTurns_window window small _ member).2.1
  have still := loopTurns_quiet resources window small quiet _ member
  have grows := loop_grows window small _ member
  rw [weight_of_quiet still] at grows
  have fits : (last.counted native).destinationLength + destinationBufferLength ≤
      p.maxStringLength := by
    rw [tail.counted_destinationLength]
    exact Nat.le_trans (Nat.add_le_add_right grows _) room
  have decided : TurnDecided (bufferedTurn gvl native resultOf destinationBufferLength
      (last, lastEnv)) := bufferedTurn_quiet resources still fun _ => fits
  rw [left] at decided
  exact decided

end Loop

/-! ## Whole runs -/

section Runs

variable {fuel : Nat} {state : σ} {source : List Byte} {destinationValue : RString p} {gvl : Bool}
  {env after : Environment} {exit : Exit (Buffers σ p)}

theorem compress_room {codec : CompressorCodec σ} (quiet : env.Quiet)
    (returned : compress codec fuel state source destinationValue destinationValue.length gvl env =
      some (exit, after))
    (room : bytesWritten (codecCalls gvl (compressTurns codec fuel state source destinationValue
        destinationValue.length gvl env)) + destinationValue.length ≤ p.maxStringLength) :
    DecidedByCodec (exit, after) := by
  have small : destinationValue.length ≤ p.maxStringLength := destinationValue.length_le
  have window := Buffers.start_window state source destinationValue
  have nothing : (Buffers.start state source destinationValue
    destinationValue.length).destinationLength = 0 := rfl
  rcases compress_runs returned with ⟨feeding, abnormal⟩ | ⟨fed, fedEnv, feeding, onward⟩
  · rw [compressTurns_unfed (unfed_of_abnormal feeding abnormal)] at room
    exact loop_room (by simp) window small quiet feeding (by omega)
  · rw [compressTurns_fed feeding, bytesWritten_append] at room
    obtain ⟨fedQuiet, _⟩ := loop_room (by simp) window small quiet feeding (by omega)
    have found := loop_leaves window small feeding
    cases bufferedLoop_result window small (.of_run feeding) with
    | ok _ _ fedWindow =>
        rcases onward with ⟨finishing, _⟩ | ⟨flushed, flushedEnv, finishing, shrunk⟩
        · exact loop_room (by simp) fedWindow small fedQuiet finishing (by omega)
        · obtain ⟨flushedQuiet, _⟩ :=
            loop_room (by simp) fedWindow small fedQuiet finishing (by omega)
          cases bufferedLoop_result fedWindow small (.of_run finishing) with
          | ok _ _ flushedWindow =>
              rw [← shrunk]
              exact Buffers.shrink_quiet flushedWindow flushedQuiet

theorem decompress_room {codec : DecompressorCodec σ} (quiet : env.Quiet)
    (returned : decompress codec fuel state source destinationValue destinationValue.length gvl
      env = some (exit, after))
    (room : bytesWritten (codecCalls gvl (decompressTurns codec fuel state source destinationValue
        destinationValue.length gvl env)) + destinationValue.length ≤ p.maxStringLength) :
    DecidedByCodec (exit, after) := by
  have small : destinationValue.length ≤ p.maxStringLength := destinationValue.length_le
  have window := Buffers.start_window state source destinationValue
  have nothing : (Buffers.start state source destinationValue
    destinationValue.length).destinationLength = 0 := rfl
  unfold decompressTurns at room
  rcases decompress_runs returned with ⟨executed, _⟩ | ⟨buffers, middle, executed, shrunk⟩
  · exact loop_room (decompressResult_ne (by decide)) window small quiet executed (by omega)
  · obtain ⟨middleQuiet, _⟩ :=
      loop_room (decompressResult_ne (by decide)) window small quiet executed (by omega)
    cases bufferedLoop_result window small (.of_run executed) with
    | ok _ _ tail =>
        rw [← shrunk]
        exact Buffers.shrink_quiet tail middleQuiet

end Runs

end RubyLzws.Ext
