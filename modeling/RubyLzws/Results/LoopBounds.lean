import RubyLzws.Ext.StringRoom

/-!
# How often the string loops call the codec

A turn that is followed by another has either written something into a full fresh
window, or has used up what the loop before left over.  So the codec is called at most
once more than there are bytes written in a loop that starts with a fresh window, and
twice more in one that does not; and a Ruby string cannot grow for ever.
-/

namespace RubyLzws.Results.LoopBounds

open Ext Library.Transducer Library.Loop

variable {σ τ ε : Type} {p : Platform}

/-- In these turns there are at most `extra` more codec calls than bytes written. -/
def CallsWithin (gvl : Bool) (extra : Nat) (turns : List (LoopTurn σ ε p)) : Prop :=
  (codecCalls gvl turns).length ≤ bytesWritten (codecCalls gvl turns) + extra

/--
A function, of whose turns `Made` gives an account, comes to an end, with one result for
every large enough fuel, and however far its run is followed it makes at most `extra` more
codec calls than bytes were written.
-/
structure EndsWithin (gvl : Bool) (extra : Nat)
    (run : Nat → Option (Exit (Buffers σ p) × Environment))
    (turns : Nat → List (LoopTurn σ ε p))
    (Made : List (LoopTurn σ ε p) → Exit (Buffers σ p) × Environment → Prop) : Prop where
  turnsOf : TurnsOf run turns Made
  ends : ∃ bound result, ∀ fuel, bound ≤ fuel → run fuel = some result
  calls : ∀ fuel, CallsWithin gvl extra (turns fuel)

theorem CallsWithin.append {gvl : Bool} {left right : Nat} {first second : List (LoopTurn σ ε p)}
    (one : CallsWithin gvl left first) (two : CallsWithin gvl right second) :
    CallsWithin gvl (left + right) (first ++ second) := by
  unfold CallsWithin bytesWritten at *
  rw [codecCalls_append, List.length_append, List.map_append, List.sum_append]
  omega

theorem CallsWithin.mono {gvl : Bool} {extra more : Nat} {turns : List (LoopTurn σ ε p)}
    (within : CallsWithin gvl extra turns) (le : extra ≤ more) : CallsWithin gvl more turns :=
  Nat.le_trans within (Nat.add_le_add_left le _)

/-! ## One loop -/

section Loop

variable {gvl : Bool} {native : Native σ Byte Byte ε} {resultOf : ε → ExtError}
  {destinationBufferLength fuel : Nat} {start : Buffers σ p} {env : Environment}

/-- The calls that a loop may make without writing: one more where its window is not fresh. -/
def allowance (destinationBufferLength : Nat) (buffers : Buffers σ p) : Nat :=
  if buffers.remainingDestinationBufferLength = destinationBufferLength then 1 else 2

theorem allowance_pos (destinationBufferLength : Nat) (buffers : Buffers σ p) :
    1 ≤ allowance destinationBufferLength buffers := by
  unfold allowance
  split <;> decide

theorem allowance_le (destinationBufferLength : Nat) (buffers : Buffers σ p) :
    allowance destinationBufferLength buffers ≤ 2 := by
  unfold allowance
  split <;> decide

/-- A turn that is followed by another pays for it. -/
theorem again_pays {buffers next : Buffers σ p} {after : Environment}
    (window : buffers.WindowIsTail destinationBufferLength)
    (small : destinationBufferLength ≤ p.maxStringLength)
    (turned : bufferedTurn gvl native resultOf destinationBufferLength (buffers, env) =
      .again (next, after)) :
    allowance destinationBufferLength next + 1 ≤
      allowance destinationBufferLength buffers + weight gvl ⟨native, buffers, env⟩ := by
  have called : LoopTurn.calls gvl ⟨native, buffers, env⟩ = true :=
    calls_of_turn fun left impossible => by
      rw [turned] at impossible
      cases impossible
  obtain ⟨_, touched, grown⟩ := bufferedTurn_again window small turned
  have fresh : allowance destinationBufferLength next = 1 := if_pos grown.fresh
  have wrote : weight gvl ⟨native, buffers, env⟩ = (buffers.reply native).written.length :=
    if_pos called
  rw [fresh, wrote, allowance]
  split
  · next full =>
      -- A full window that is not full any more has been written into.
      rw [Buffers.counted_remaining] at touched
      omega
  · exact Nat.le_add_right _ _

/-- The calls of one loop. -/
theorem loop_calls (window : start.WindowIsTail destinationBufferLength)
    (small : destinationBufferLength ≤ p.maxStringLength) :
    CallsWithin gvl (allowance destinationBufferLength start)
      (loopTurns gvl native resultOf destinationBufferLength fuel (start, env)) := by
  have bound : (visited (bufferedTurn gvl native resultOf destinationBufferLength) fuel
      (start, env)).length ≤ allowance destinationBufferLength start +
        ((visited (bufferedTurn gvl native resultOf destinationBufferLength) fuel
          (start, env)).map fun state => weight gvl ⟨native, state.1, state.2⟩).sum := by
    apply visited_length_le
      (fun state : Buffers σ p × Environment => state.1.WindowIsTail destinationBufferLength)
      (fun state => allowance destinationBufferLength state.1) _ _ _ window
    · rintro ⟨buffers, env⟩ ⟨next, after⟩ tail turned
      exact ⟨(bufferedTurn_again tail small turned).2.2.window, again_pays tail small turned⟩
    · rintro ⟨buffers, env⟩ left _ _
      exact Nat.le_add_right_of_le (allowance_pos destinationBufferLength buffers)
  unfold CallsWithin
  have fewer := List.length_filter_le (LoopTurn.calls gvl)
    (loopTurns gvl native resultOf destinationBufferLength fuel (start, env))
  rw [bytesWritten_codecCalls, codecCalls]
  rw [loopTurns, List.length_map] at fewer
  rw [loopTurns, List.map_map]
  exact Nat.le_trans fewer (Nat.le_trans bound (Nat.le_of_eq (Nat.add_comm _ _)))

end Loop

/-! ## Whole runs -/

section Runs

variable {source : List Byte} {destinationValue : RString p} {gvl : Bool} {env : Environment}

/-- The first loop of both functions starts with a fresh window. -/
theorem first_loop_calls (native : Native σ Byte Byte ε) (resultOf : ε → ExtError) (fuel : Nat)
    (state : σ) :
    CallsWithin gvl 1 (loopTurns gvl native resultOf destinationValue.length fuel
      (.start state source destinationValue destinationValue.length, env)) := by
  have fresh : allowance destinationValue.length
      (Buffers.start state source destinationValue destinationValue.length) = 1 := if_pos rfl
  rw [← fresh]
  exact loop_calls (Buffers.start_window state source destinationValue) destinationValue.length_le

theorem compress_calls (codec : CompressorCodec σ) (fuel : Nat) (state : σ) :
    CallsWithin gvl 3 (compressTurns codec fuel state source destinationValue
      destinationValue.length gvl env) := by
  have small : destinationValue.length ≤ p.maxStringLength := destinationValue.length_le
  have window := Buffers.start_window state source destinationValue
  have feedingCalls : CallsWithin gvl 1 (loopTurns gvl codec.compress (fun _ => .unexpected)
      destinationValue.length fuel
        (.start state source destinationValue destinationValue.length, env)) :=
    first_loop_calls codec.compress _ fuel state
  by_cases feeds : ∃ fed fedEnv, run (bufferedCompress gvl codec.compress destinationValue.length)
      fuel (.start state source destinationValue destinationValue.length, env) =
        some (.ok fed, fedEnv)
  · obtain ⟨fed, fedEnv, feeding⟩ := feeds
    cases bufferedLoop_result window small (.of_run feeding) with
    | ok _ _ fedWindow =>
        rw [compressTurns_fed feeding]
        -- What is left of the window for finishing need not be a fresh one.
        have finishingCalls : CallsWithin gvl 2 (loopTurns gvl codec.finishNative
            (fun _ => .unexpected) destinationValue.length fuel (fed, fedEnv)) :=
          (loop_calls fedWindow small).mono (allowance_le _ fed)
        exact feedingCalls.append finishingCalls
  · simp only [not_exists] at feeds
    rw [compressTurns_unfed feeds]
    exact feedingCalls.mono (by decide)

theorem decompress_calls (codec : DecompressorCodec σ) (fuel : Nat) (state : σ) :
    CallsWithin gvl 1 (decompressTurns codec fuel state source destinationValue
      destinationValue.length gvl env) :=
  first_loop_calls codec.decompress decompressResult fuel state

end Runs

/--
**The string loops end for every codec.**  Whatever the codec answers, `compress` makes at
most three and `decompress` at most one more codec calls than bytes were written.
-/
theorem string_loops_end (compressor : CompressorCodec σ) (decompressor : DecompressorCodec τ)
    (source : List Byte) (destinationValue : RString p) (gvl : Bool) (env : Environment) :
    (∀ state, EndsWithin gvl 3
      (fun fuel => compress compressor fuel state source destinationValue destinationValue.length
        gvl env)
      (fun fuel => compressTurns compressor fuel state source destinationValue
        destinationValue.length gvl env)
      (CompressMakes compressor destinationValue.length gvl
        (.start state source destinationValue destinationValue.length, env))) ∧
    (∀ state, EndsWithin gvl 1
      (fun fuel => decompress decompressor fuel state source destinationValue
        destinationValue.length gvl env)
      (fun fuel => decompressTurns decompressor fuel state source destinationValue
        destinationValue.length gvl env)
      (DecompressMakes decompressor destinationValue.length gvl
        (.start state source destinationValue destinationValue.length, env))) := by
  constructor
  · intro state
    have turnsOf := compress_turnsOf compressor state source destinationValue
      destinationValue.length gvl env
    obtain ⟨fuel, result, returned⟩ : ∃ fuel result, compress compressor fuel state source
        destinationValue destinationValue.length gvl env = some result :=
      compress_returns state source destinationValue gvl env
    obtain ⟨bound, found⟩ := turnsOf.stays returned
    exact ⟨turnsOf, ⟨bound, result, found⟩, fun fuel => compress_calls compressor fuel state⟩
  · intro state
    have turnsOf := decompress_turnsOf decompressor state source destinationValue
      destinationValue.length gvl env
    obtain ⟨fuel, result, returned⟩ : ∃ fuel result, decompress decompressor fuel state source
        destinationValue destinationValue.length gvl env = some result :=
      decompress_returns state source destinationValue gvl env
    obtain ⟨bound, found⟩ := turnsOf.stays returned
    exact ⟨turnsOf, ⟨bound, result, found⟩, fun fuel => decompress_calls decompressor fuel state⟩

end RubyLzws.Results.LoopBounds
