import RubyLzws.Ext.StringCalls

/-!
# The windows of the string loops

The codec writes through a pointer into the middle of a Ruby string, and how much it
may write there is kept in a counter of its own.  Whatever the codec answers, pointer
and counter describe exactly the tail of the string, in both loops of `compress` and
in the loop of `decompress`, up to the longest string there is.
-/

namespace RubyLzws.Results.WindowSafety

open Ext Library.Transducer Library.Loop

variable {σ τ ε : Type} {p : Platform}

/-- The variables right after the codec call, before anything is added or resized. -/
def called (turn : LoopTurn σ ε p) : Buffers σ p := turn.buffers.call turn.native

/-- What a turn of the loops does to the string and to the counters. -/
structure SafeTurn (destinationBufferLength : Nat) (turn : LoopTurn σ ε p) : Prop where
  /-- The codec is offered exactly the tail of the string. -/
  window : turn.buffers.destinationLength + turn.buffers.remainingDestinationBufferLength =
    turn.buffers.destinationValue.length
  window_le : turn.buffers.remainingDestinationBufferLength ≤ destinationBufferLength
  /-- It writes inside the string, and nothing below `destination_length`. -/
  inside : turn.buffers.destinationLength + turn.reply.written.length ≤
    turn.buffers.destinationValue.length
  below : (called turn).destinationValue.bytes.take turn.buffers.destinationLength =
    turn.buffers.destinationValue.bytes.take turn.buffers.destinationLength
  /-- `prev_remaining - remaining` does not underflow, and is what the codec wrote. -/
  ordered : (called turn).remainingDestinationBufferLength ≤
    turn.buffers.remainingDestinationBufferLength
  difference : p.sizeSub turn.buffers.remainingDestinationBufferLength
    (called turn).remainingDestinationBufferLength = turn.reply.written.length
  /-- Adding it to `destination_length` does not overflow. -/
  sum : turn.counted.destinationLength =
    turn.buffers.destinationLength + turn.reply.written.length
  /-- A resize in the loop asks for a longer string, without an overflow. -/
  request : turn.counted.remainingDestinationBufferLength ≠ destinationBufferLength →
    p.sizeAdd turn.counted.destinationLength destinationBufferLength =
        turn.counted.destinationLength + destinationBufferLength ∧
      turn.counted.destinationValue.length <
        turn.counted.destinationLength + destinationBufferLength
  /-- Where it is made, the string is longer and the same below `destination_length`. -/
  resized : ∀ env next after,
    increaseDestinationBuffer destinationBufferLength turn.counted env = (.ok next, after) →
      turn.counted.destinationValue.length < next.destinationValue.length ∧
        next.output = turn.counted.output

/--
What holds of all turns of a run: each is safe; the bytes below `destination_length`
stay as they are through all later calls and resizes, those that lead to a later turn
and the last one, which makes the string that is returned.
-/
structure SafeRun (destinationBufferLength : Nat) (turns : List (LoopTurn σ ε p))
    (run : Option (Exit (Buffers σ p) × Environment)) : Prop where
  safe : ∀ turn ∈ turns, SafeTurn destinationBufferLength turn
  kept : turns.Pairwise fun earlier later => earlier.counted.output <+: later.buffers.output
  returned : ∀ buffers after, run = some (.ok buffers, after) →
    ∀ turn ∈ turns, turn.counted.output <+: buffers.destinationValue.bytes

/-! ## One turn -/

/-- Where the window is the tail of the string, the turn is safe. -/
theorem safeTurn_of_window {destinationBufferLength : Nat} {turn : LoopTurn σ ε p}
    (window : turn.buffers.WindowIsTail destinationBufferLength)
    (small : destinationBufferLength ≤ p.maxStringLength) :
    SafeTurn destinationBufferLength turn := by
  have written : turn.reply.written.length ≤ turn.buffers.remainingDestinationBufferLength :=
    turn.reply.written_le
  have lowered : (called turn).remainingDestinationBufferLength =
      turn.buffers.remainingDestinationBufferLength - turn.reply.written.length := rfl
  have counted : turn.counted.WindowIsTail destinationBufferLength := window.counted
  have size := p.sizeModulus_eq
  have longer : turn.counted.remainingDestinationBufferLength ≠ destinationBufferLength →
      turn.counted.destinationValue.length <
        turn.counted.destinationLength + destinationBufferLength := by
    intro touched
    have tail := counted.tail
    have below := counted.window_le
    omega
  constructor
  · exact window.tail
  · exact window.window_le
  · exact window.write_inside
  · exact RString.write_take_below _ window.write_inside
  · rw [lowered]
    exact Nat.sub_le _ _
  · have fits := turn.buffers.destinationValue.length_lt_sizeModulus
    have tail := window.tail
    rw [lowered, p.sizeSub_eq (Nat.sub_le _ _) (by omega), Nat.sub_sub_self written]
  · exact window.counted_destinationLength
  · intro touched
    have tail := counted.tail
    have longest : turn.counted.destinationValue.length ≤ p.maxStringLength :=
      turn.counted.destinationValue.length_le
    exact ⟨p.sizeAdd_eq (by omega), longer touched⟩
  · intro env next after increased
    cases increaseDestinationBuffer_cases counted small increased with
    | grown touched grown =>
        rw [grown.length]
        exact ⟨longer touched, grown.output⟩

/-! ## One loop -/

section Loop

variable {gvl : Bool} {native : Native σ Byte Byte ε} {resultOf : ε → ExtError}
  {destinationBufferLength fuel : Nat} {start : Buffers σ p} {env : Environment}

/-- All turns of a loop are safe, and come after what the string held before. -/
theorem loop_safe (window : start.WindowIsTail destinationBufferLength)
    (small : destinationBufferLength ≤ p.maxStringLength) :
    ∀ turn ∈ loopTurns gvl native resultOf destinationBufferLength fuel (start, env),
      SafeTurn destinationBufferLength turn ∧ start.output <+: turn.buffers.output := by
  intro turn member
  obtain ⟨_, tail, grows⟩ := loopTurns_window window small turn member
  exact ⟨safeTurn_of_window tail small, grows⟩

/-- What a turn has written stays, in every later turn. -/
theorem loop_kept (window : start.WindowIsTail destinationBufferLength)
    (small : destinationBufferLength ≤ p.maxStringLength) :
    (loopTurns gvl native resultOf destinationBufferLength fuel (start, env)).Pairwise
      fun earlier later => earlier.counted.output <+: later.buffers.output := by
  rw [loopTurns, List.pairwise_map]
  apply visited_pairwise (fun state => state.1.WindowIsTail destinationBufferLength) _ _ _ _ window
  · rintro ⟨buffers, env⟩ ⟨next, after⟩ tail turned
    exact (bufferedTurn_again tail small turned).2.2.window
  · rintro ⟨buffers, env⟩ ⟨next, after⟩ tail turned
    obtain ⟨_, _, grown⟩ := bufferedTurn_again tail small turned
    exact ⟨[], (List.append_nil _).trans grown.output.symm⟩
  · rintro first ⟨buffers, env⟩ ⟨next, after⟩ tail kept turned
    obtain ⟨_, _, grown⟩ := bufferedTurn_again tail small turned
    refine kept.trans ?_
    change buffers.output <+: next.output
    rw [grown.output, tail.counted_output]
    exact List.prefix_append _ _

/-- What the turns have written is there when the loop ends. -/
theorem loop_returned {buffers : Buffers σ p} {after : Environment}
    (window : start.WindowIsTail destinationBufferLength)
    (small : destinationBufferLength ≤ p.maxStringLength)
    (executed : run (bufferedTurn gvl native resultOf destinationBufferLength) fuel (start, env) =
      some (.ok buffers, after)) :
    ∀ turn ∈ loopTurns gvl native resultOf destinationBufferLength fuel (start, env),
      turn.counted.output <+: buffers.output := by
  have kept : (loopTurns gvl native resultOf destinationBufferLength fuel (start, env)).Pairwise
      fun earlier later => earlier.counted.output <+: later.buffers.output :=
    loop_kept window small
  obtain ⟨earlier, last, lastEnv, whole, left⟩ := loopTurns_of_run executed
  have tail : last.WindowIsTail destinationBufferLength :=
    (loopTurns_window window small _ (whole ▸ List.mem_append_right _ List.mem_cons_self)).2.1
  have result := bufferedTurn_result native resultOf gvl lastEnv tail small
  rw [left] at result
  cases result with
  | done status =>
      have grows : last.output <+: (last.counted native).output := by
        rw [tail.counted_output]
        exact List.prefix_append _ _
      rw [whole] at kept ⊢
      intro turn member
      rcases List.mem_append.mp member with before | ends
      · have through := (List.pairwise_append.mp kept).2.2 turn before _ List.mem_cons_self
        exact through.trans grows
      · rw [List.mem_singleton] at ends
        subst ends
        exact List.prefix_refl _

end Loop

/-! ## Whole runs -/

section Runs

variable {fuel : Nat} {source : List Byte} {destinationValue : RString p} {gvl : Bool}
  {env : Environment}

/-- The last resize keeps what was written. -/
theorem shrink_returned {buffers last : Buffers σ p} {middle after : Environment}
    {destinationBufferLength : Nat} (window : last.WindowIsTail destinationBufferLength)
    (shrunk : last.shrink middle = (.ok buffers, after)) :
    buffers.destinationValue.bytes = last.output := by
  cases Buffers.shrink_cases window shrunk with
  | ok bytes _ _ => exact bytes

theorem compress_safe (codec : CompressorCodec σ) (state : σ) :
    SafeRun destinationValue.length
      (compressTurns codec fuel state source destinationValue destinationValue.length gvl env)
      (compress codec fuel state source destinationValue destinationValue.length gvl env) := by
  have small : destinationValue.length ≤ p.maxStringLength := destinationValue.length_le
  have window := Buffers.start_window state source destinationValue
  by_cases feeds : ∃ fed fedEnv, run (bufferedCompress gvl codec.compress destinationValue.length)
      fuel (.start state source destinationValue destinationValue.length, env) =
        some (.ok fed, fedEnv)
  · obtain ⟨fed, fedEnv, feeding⟩ := feeds
    cases bufferedLoop_result window small (.of_run feeding) with
    | ok _ _ fedWindow =>
        rw [compressTurns_fed feeding]
        constructor
        · intro turn member
          rcases List.mem_append.mp member with first | second
          · exact (loop_safe window small turn first).1
          · exact (loop_safe fedWindow small turn second).1
        · refine List.pairwise_append.mpr
            ⟨loop_kept window small, loop_kept fedWindow small, ?_⟩
          intro earlier first later second
          have fedKeeps := loop_returned window small feeding earlier first
          exact fedKeeps.trans (loop_safe fedWindow small later second).2
        · intro buffers after returned turn member
          rcases compress_runs returned with ⟨_, abnormal⟩ | ⟨other, otherEnv, again, onward⟩
          · exact absurd rfl (abnormal buffers)
          · rw [feeding] at again
            cases again
            rcases onward with ⟨_, abnormal⟩ | ⟨flushed, flushedEnv, finishing, shrunk⟩
            · exact absurd rfl (abnormal buffers)
            · cases bufferedLoop_result fedWindow small (.of_run finishing) with
              | ok _ flushedOutput flushedWindow =>
                  rw [shrink_returned flushedWindow shrunk]
                  rcases List.mem_append.mp member with first | second
                  · have fedKeeps := loop_returned window small feeding turn first
                    refine fedKeeps.trans ?_
                    rw [flushedOutput]
                    exact List.prefix_append _ _
                  · exact loop_returned fedWindow small finishing turn second
  · simp only [not_exists] at feeds
    rw [compressTurns_unfed feeds]
    constructor
    · exact fun turn member => (loop_safe window small turn member).1
    · exact loop_kept window small
    · intro buffers after returned
      rcases compress_runs returned with ⟨_, abnormal⟩ | ⟨fed, fedEnv, feeding, _⟩
      · exact absurd rfl (abnormal buffers)
      · exact absurd feeding (feeds fed fedEnv)

theorem decompress_safe (codec : DecompressorCodec σ) (state : σ) :
    SafeRun destinationValue.length
      (decompressTurns codec fuel state source destinationValue destinationValue.length gvl env)
      (decompress codec fuel state source destinationValue destinationValue.length gvl env) := by
  have small : destinationValue.length ≤ p.maxStringLength := destinationValue.length_le
  have window := Buffers.start_window state source destinationValue
  constructor
  · exact fun turn member => (loop_safe window small turn member).1
  · exact loop_kept window small
  · intro buffers after returned turn member
    rcases decompress_runs returned with ⟨_, abnormal⟩ | ⟨last, middle, executed, shrunk⟩
    · exact absurd rfl (abnormal buffers)
    · cases bufferedLoop_result window small (.of_run executed) with
      | ok _ _ tail =>
          rw [shrink_returned tail shrunk]
          exact loop_returned window small executed turn member

end Runs

/--
**The windows of the string loops are safe against any codec.**  For every codec, whose
state may hold the very answers it is going to give, every source and every destination
string, in all turns that `compress` and `decompress` make: the window is the tail of the
string, what was written stays, every resize in the loops enlarges the string, and no
`size_t` wraps around.
-/
theorem string_windows_safe (compressor : CompressorCodec σ) (decompressor : DecompressorCodec τ)
    (fuel : Nat) (source : List Byte) (destinationValue : RString p) (gvl : Bool)
    (env : Environment) :
    (∀ state, TurnsOf
        (fun fuel => compress compressor fuel state source destinationValue
          destinationValue.length gvl env)
        (fun fuel => compressTurns compressor fuel state source destinationValue
          destinationValue.length gvl env)
        (CompressMakes compressor destinationValue.length gvl
          (.start state source destinationValue destinationValue.length, env)) ∧
      SafeRun destinationValue.length
        (compressTurns compressor fuel state source destinationValue destinationValue.length gvl
          env)
        (compress compressor fuel state source destinationValue destinationValue.length gvl
          env)) ∧
    (∀ state, TurnsOf
        (fun fuel => decompress decompressor fuel state source destinationValue
          destinationValue.length gvl env)
        (fun fuel => decompressTurns decompressor fuel state source destinationValue
          destinationValue.length gvl env)
        (DecompressMakes decompressor destinationValue.length gvl
          (.start state source destinationValue destinationValue.length, env)) ∧
      SafeRun destinationValue.length
        (decompressTurns decompressor fuel state source destinationValue destinationValue.length
          gvl env)
        (decompress decompressor fuel state source destinationValue destinationValue.length gvl
          env)) := by
  constructor
  · intro state
    exact ⟨compress_turnsOf compressor state source destinationValue _ gvl env,
      compress_safe compressor state⟩
  · intro state
    exact ⟨decompress_turnsOf decompressor state source destinationValue _ gvl env,
      decompress_safe decompressor state⟩

end RubyLzws.Results.WindowSafety
