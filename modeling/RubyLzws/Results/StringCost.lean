import RubyLzws.Ext.StoredCodec
import RubyLzws.Results.LoopBounds

/-!
# What a string call costs

A window that is much longer than the units of the codec is nearly filled by every call
that asks for another.  So the codec is called about as often as the output has windows,
and the string is at no time longer than the output and one window.
-/

namespace RubyLzws.Results.StringCost

open Ext Library.Transducer Library.Loop LoopBounds

variable {σ τ ε : Type} {p : Platform}

/-- All but `extra` of the codec calls in these turns wrote `filled` bytes, on the average. -/
def CallsFill (gvl : Bool) (filled extra : Nat) (turns : List (LoopTurn σ ε p)) : Prop :=
  (codecCalls gvl turns).length * filled ≤
    bytesWritten (codecCalls gvl turns) + extra * filled

/-- No turn begins with a string longer than what was written and one window. -/
def StringFollows (gvl : Bool) (destinationBufferLength : Nat) (turns : List (LoopTurn σ ε p)) :
    Prop :=
  ∀ turn ∈ turns, turn.buffers.destinationValue.length ≤
    bytesWritten (codecCalls gvl turns) + destinationBufferLength

theorem CallsFill.append {gvl : Bool} {filled left right : Nat}
    {first second : List (LoopTurn σ ε p)} (one : CallsFill gvl filled left first)
    (two : CallsFill gvl filled right second) :
    CallsFill gvl filled (left + right) (first ++ second) := by
  unfold CallsFill at *
  rw [bytesWritten_append, codecCalls_append, List.length_append, Nat.add_mul, Nat.add_mul]
  omega

theorem CallsFill.mono {gvl : Bool} {filled extra more : Nat} {turns : List (LoopTurn σ ε p)}
    (fills : CallsFill gvl filled extra turns) (le : extra ≤ more) :
    CallsFill gvl filled more turns :=
  Nat.le_trans fills (Nat.add_le_add_left (Nat.mul_le_mul_right filled le) _)

/-! ## One loop -/

section Loop

variable {gvl : Bool} {native : Native σ Byte Byte ε} {resultOf : ε → ExtError}
  {destinationBufferLength units fuel : Nat} {start : Buffers σ p} {env : Environment}

/-- A turn that is followed by another has nearly filled a fresh window. -/
theorem again_fills {buffers next : Buffers σ p} {after : Environment}
    (law : UnitsAtMost native units) (window : buffers.WindowIsTail destinationBufferLength)
    (small : destinationBufferLength ≤ p.maxStringLength)
    (turned : bufferedTurn gvl native resultOf destinationBufferLength (buffers, env) =
      .again (next, after)) :
    allowance destinationBufferLength next * (destinationBufferLength + 1 - units) +
        (destinationBufferLength + 1 - units) ≤
      allowance destinationBufferLength buffers * (destinationBufferLength + 1 - units) +
        weight gvl ⟨native, buffers, env⟩ := by
  have called : LoopTurn.calls gvl ⟨native, buffers, env⟩ = true :=
    calls_of_turn fun left impossible => by
      rw [turned] at impossible
      cases impossible
  obtain ⟨status, _, grown⟩ := bufferedTurn_again window small turned
  have fresh : allowance destinationBufferLength next = 1 := if_pos grown.fresh
  have wrote : weight gvl ⟨native, buffers, env⟩ = (buffers.reply native).written.length :=
    if_pos called
  rw [fresh, wrote, allowance]
  split
  · next full =>
      have filled : buffers.remainingDestinationBufferLength <
          (buffers.reply native).written.length + units := law _ _ _ status
      omega
  · omega

theorem loop_fills (law : UnitsAtMost native units)
    (window : start.WindowIsTail destinationBufferLength)
    (small : destinationBufferLength ≤ p.maxStringLength) :
    CallsFill gvl (destinationBufferLength + 1 - units) (allowance destinationBufferLength start)
      (loopTurns gvl native resultOf destinationBufferLength fuel (start, env)) := by
  have bound : (visited (bufferedTurn gvl native resultOf destinationBufferLength) fuel
      (start, env)).length * (destinationBufferLength + 1 - units) ≤
        allowance destinationBufferLength start * (destinationBufferLength + 1 - units) +
          ((visited (bufferedTurn gvl native resultOf destinationBufferLength) fuel
            (start, env)).map fun state => weight gvl ⟨native, state.1, state.2⟩).sum := by
    apply visited_cost_le
      (fun state : Buffers σ p × Environment => state.1.WindowIsTail destinationBufferLength)
      (fun state =>
        allowance destinationBufferLength state.1 * (destinationBufferLength + 1 - units))
      _ _ _ _ window
    · rintro ⟨buffers, env⟩ ⟨next, after⟩ tail turned
      exact ⟨(bufferedTurn_again tail small turned).2.2.window,
        again_fills law tail small turned⟩
    · rintro ⟨buffers, env⟩ left _ _
      exact Nat.le_add_right_of_le (Nat.le_mul_of_pos_left _
        (allowance_pos destinationBufferLength buffers))
  have fewer := List.length_filter_le (LoopTurn.calls gvl)
    (loopTurns gvl native resultOf destinationBufferLength fuel (start, env))
  rw [CallsFill, bytesWritten_codecCalls, codecCalls]
  rw [loopTurns, List.length_map] at fewer
  rw [loopTurns, List.map_map]
  exact Nat.le_trans (Nat.mul_le_mul_right _ fewer)
    (Nat.le_trans bound (Nat.le_of_eq (Nat.add_comm _ _)))

theorem string_le {buffers : Buffers σ p} (window : buffers.WindowIsTail destinationBufferLength) :
    buffers.destinationValue.length ≤ buffers.destinationLength + destinationBufferLength := by
  have tail := window.tail
  have bound := window.window_le
  omega

end Loop

/-! ## Whole runs -/

section Runs

variable {source : List Byte} {destinationValue : RString p} {gvl : Bool} {env : Environment}
  {units : Nat}

/-- The first loop of both functions starts with a fresh window. -/
theorem first_loop_fills {native : Native σ Byte Byte ε} (law : UnitsAtMost native units)
    (resultOf : ε → ExtError) (fuel : Nat) (state : σ) :
    CallsFill gvl (destinationValue.length + 1 - units) 1 (loopTurns gvl native resultOf
      destinationValue.length fuel
      (.start state source destinationValue destinationValue.length, env)) := by
  have fills : CallsFill gvl (destinationValue.length + 1 - units)
      (allowance destinationValue.length
        (Buffers.start state source destinationValue destinationValue.length))
      (loopTurns gvl native resultOf destinationValue.length fuel
        (.start state source destinationValue destinationValue.length, env)) :=
    loop_fills law (Buffers.start_window state source destinationValue) destinationValue.length_le
  have fresh : allowance destinationValue.length
      (Buffers.start state source destinationValue destinationValue.length) = 1 := if_pos rfl
  rwa [fresh] at fills

theorem first_loop_follows (native : Native σ Byte Byte ε) (resultOf : ε → ExtError) (fuel : Nat)
    (state : σ) :
    StringFollows gvl destinationValue.length (loopTurns gvl native resultOf
      destinationValue.length fuel
      (.start state source destinationValue destinationValue.length, env)) := by
  have small : destinationValue.length ≤ p.maxStringLength := destinationValue.length_le
  have window := Buffers.start_window state source destinationValue
  intro turn member
  have held := string_le (loopTurns_window window small turn member).2.1
  have grows := loop_grows window small turn member
  have nothing : (Buffers.start state source destinationValue
    destinationValue.length).destinationLength = 0 := rfl
  omega

/-- `compress` makes the turns of its first loop, and may make those of its second. -/
theorem compressTurns_cases (codec : CompressorCodec σ) (fuel : Nat) (state : σ) :
    compressTurns codec fuel state source destinationValue destinationValue.length gvl env =
        loopTurns gvl codec.compress (fun _ => .unexpected) destinationValue.length fuel
          (.start state source destinationValue destinationValue.length, env) ∨
      ∃ fed fedEnv, fed.WindowIsTail destinationValue.length ∧
        fed.destinationLength ≤ bytesWritten (codecCalls gvl
          (loopTurns gvl codec.compress (fun _ => .unexpected) destinationValue.length fuel
            (.start state source destinationValue destinationValue.length, env))) ∧
        compressTurns codec fuel state source destinationValue destinationValue.length gvl env =
          loopTurns gvl codec.compress (fun _ => .unexpected) destinationValue.length fuel
            (.start state source destinationValue destinationValue.length, env) ++
          loopTurns gvl codec.finishNative (fun _ => .unexpected) destinationValue.length fuel
            (fed, fedEnv) := by
  have small : destinationValue.length ≤ p.maxStringLength := destinationValue.length_le
  have window := Buffers.start_window state source destinationValue
  by_cases feeds : ∃ fed fedEnv, run (bufferedCompress gvl codec.compress destinationValue.length)
      fuel (.start state source destinationValue destinationValue.length, env) =
        some (.ok fed, fedEnv)
  · obtain ⟨fed, fedEnv, feeding⟩ := feeds
    have found := loop_leaves window small feeding
    have nothing : (Buffers.start state source destinationValue
      destinationValue.length).destinationLength = 0 := rfl
    rw [nothing, Nat.zero_add] at found
    cases bufferedLoop_result window small (.of_run feeding) with
    | ok _ _ fedWindow => exact .inr ⟨fed, fedEnv, fedWindow, found, compressTurns_fed feeding⟩
  · simp only [not_exists] at feeds
    exact .inl (compressTurns_unfed feeds)

theorem compress_fills {codec : CompressorCodec σ} (law : UnitsAtMost codec.compress units)
    (finishLaw : UnitsAtMost codec.finishNative units) (fuel : Nat) (state : σ) :
    CallsFill gvl (destinationValue.length + 1 - units) 3 (compressTurns codec fuel state source
      destinationValue destinationValue.length gvl env) := by
  rcases compressTurns_cases codec fuel state with only | ⟨fed, fedEnv, window, _, both⟩
  · rw [only]
    exact (first_loop_fills law _ fuel state).mono (by decide)
  · rw [both]
    have finishing : CallsFill gvl (destinationValue.length + 1 - units) 2
        (loopTurns gvl codec.finishNative (fun _ => .unexpected) destinationValue.length fuel
          (fed, fedEnv)) :=
      (loop_fills finishLaw window destinationValue.length_le).mono (allowance_le _ fed)
    exact (first_loop_fills law _ fuel state).append finishing

theorem compress_follows (codec : CompressorCodec σ) (fuel : Nat) (state : σ) :
    StringFollows gvl destinationValue.length (compressTurns codec fuel state source
      destinationValue destinationValue.length gvl env) := by
  rcases compressTurns_cases codec fuel state with only | ⟨fed, fedEnv, window, found, both⟩
  · rw [only]
    exact first_loop_follows _ _ fuel state
  · rw [both]
    intro turn member
    rw [bytesWritten_append]
    rcases List.mem_append.mp member with first | second
    · have bound := first_loop_follows _ _ fuel state turn first
      omega
    · have small : destinationValue.length ≤ p.maxStringLength := destinationValue.length_le
      have held := string_le (loopTurns_window window small turn second).2.1
      have grows := loop_grows window small turn second
      omega

end Runs

/--
**String calls are economical.**  Whatever the codec answers, at no time is the string
longer than what has been written in all and one window.  Where units have at most `units`
bytes and windows `length`, all but three codec calls of `compress`, and all but one of
`decompress`, have on the average written `length + 1 - units` bytes.
-/
theorem string_calls_economical (compressor : CompressorCodec σ)
    (decompressor : DecompressorCodec τ) (source : List Byte) (destinationValue : RString p)
    (gvl : Bool) (env : Environment) (fuel units : Nat) :
    (∀ state, TurnsOf
        (fun fuel => compress compressor fuel state source destinationValue
          destinationValue.length gvl env)
        (fun fuel => compressTurns compressor fuel state source destinationValue
          destinationValue.length gvl env)
        (CompressMakes compressor destinationValue.length gvl
          (.start state source destinationValue destinationValue.length, env)) ∧
      StringFollows gvl destinationValue.length (compressTurns compressor fuel state source
        destinationValue destinationValue.length gvl env) ∧
      (UnitsAtMost compressor.compress units → UnitsAtMost compressor.finishNative units →
        CallsFill gvl (destinationValue.length + 1 - units) 3 (compressTurns compressor fuel state
          source destinationValue destinationValue.length gvl env))) ∧
    ∀ state, TurnsOf
        (fun fuel => decompress decompressor fuel state source destinationValue
          destinationValue.length gvl env)
        (fun fuel => decompressTurns decompressor fuel state source destinationValue
          destinationValue.length gvl env)
        (DecompressMakes decompressor destinationValue.length gvl
          (.start state source destinationValue destinationValue.length, env)) ∧
      StringFollows gvl destinationValue.length (decompressTurns decompressor fuel state
        source destinationValue destinationValue.length gvl env) ∧
      (UnitsAtMost decompressor.decompress units →
        CallsFill gvl (destinationValue.length + 1 - units) 1 (decompressTurns decompressor fuel
          state source destinationValue destinationValue.length gvl env)) := by
  constructor
  · intro state
    exact ⟨compress_turnsOf compressor state source destinationValue _ gvl env,
      compress_follows compressor fuel state,
      fun law finishLaw => compress_fills law finishLaw fuel state⟩
  · intro state
    exact ⟨decompress_turnsOf decompressor state source destinationValue _ gvl env,
      first_loop_follows decompressor.decompress decompressResult fuel state,
      fun law => first_loop_fills law decompressResult fuel state⟩

/-- An archive of five bytes through windows of four, in units of at most two. -/
theorem string_calls_economical_archive :
    CallsFill false 3 3 (compressTurns (p := .linux64) StoredCodec.compressor 8 (.header 0x90)
        [1, 2] (.ofBytes [0, 0, 0, 0]) 4 false .calm) ∧
      (codecCalls false (compressTurns (p := .linux64) StoredCodec.compressor 8 (.header 0x90)
        [1, 2] (.ofBytes [0, 0, 0, 0]) 4 false .calm)).length = 3 := by
  constructor
  · exact ((string_calls_economical (p := .linux64) StoredCodec.compressor StoredCodec.decompressor
      [1, 2] (.ofBytes [0, 0, 0, 0]) false .calm 8 2).1 (.header 0x90)).2.2
      StoredCodec.compressor_unitsAtMost StoredCodec.compressor_finish_unitsAtMost
  · decide +kernel

end RubyLzws.Results.StringCost
