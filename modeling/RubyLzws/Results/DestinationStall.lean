import RubyLzws.Ext.StoredCodec
import RubyLzws.Ext.StringRoom
import RubyLzws.Ext.StringUnits

/-!
# When the destination buffer is too short

The string functions answer `NotEnoughDestinationBuffer` where the codec asked for more
room and had not touched its window.  For a codec that emits indivisible units this is
exactly where a unit is longer than the buffer length the caller gave.
-/

namespace RubyLzws.Results.DestinationStall

open Ext Library.Transducer Library.Loop Library.OutputUnits Library.UnitMachine

variable {σ τ ε : Type} {p : Platform}

/--
`exit` tells a buffer of `limit` bytes to be too short exactly where it is.  `HasToEmit`
are the units of the whole run, `First` holds of the first one that is longer than the
buffer with the output before it, and `calls` are the codec calls of the run.
-/
structure TellsStall (limit : Nat) (HasToEmit : List Byte → Prop)
    (First : List Byte → List Byte → Prop) (calls : List (LoopTurn σ ε p))
    (exit : Exit (Buffers σ p)) : Prop where
  /-- A buffer that holds the largest unit is never too short. -/
  enough : ∀ largest, largest ≤ limit → (∀ unit, HasToEmit unit → unit.length ≤ largest) →
    exit ≠ .error .notEnoughDestinationBuffer
  /-- Otherwise it is too short, unless the run is stopped by something else. -/
  exactly_when : Undisturbed calls exit →
    (exit = .error .notEnoughDestinationBuffer ↔ ∃ unit, HasToEmit unit ∧ limit < unit.length)
  /-- The run then ends with 0 or with this error. -/
  ends : Undisturbed calls exit →
    (∃ buffers, exit = .ok buffers) ∨ exit = .error .notEnoughDestinationBuffer
  /-- The last codec call was offered an untouched window for the first such unit. -/
  at_first : exit = .error .notEnoughDestinationBuffer → ∃ earlier last unit,
    calls = earlier ++ [last] ∧ last.Stalls limit ∧ First last.buffers.output unit
  /-- There is no further call for a unit that an untouched window did not hold. -/
  no_retry : calls.Pairwise fun earlier _ => ¬ earlier.Stalls limit
  /-- There is no success without it either. -/
  no_truncation : (∃ unit, HasToEmit unit ∧ limit < unit.length) → ∀ buffers, exit ≠ .ok buffers

/-- The other parts follow from what runs that stall, that end and that are undisturbed tell. -/
theorem TellsStall.of_parts {limit : Nat} {HasToEmit : List Byte → Prop}
    {First : List Byte → List Byte → Prop} {gvl : Bool} {turns : List (LoopTurn σ ε p)}
    {exit : Exit (Buffers σ p)}
    (longer : ∀ {out unit}, First out unit → HasToEmit unit ∧ limit < unit.length)
    (noRetry : turns.Pairwise fun earlier _ => ¬ earlier.Stalls limit)
    (stalled : exit = .error .notEnoughDestinationBuffer → ∃ earlier last unit,
      codecCalls gvl turns = earlier ++ [last] ∧ last.Stalls limit ∧
        First last.buffers.output unit)
    (ended : ∀ buffers, exit = .ok buffers → ∀ unit, HasToEmit unit → unit.length ≤ limit)
    (undisturbed : Undisturbed (codecCalls gvl turns) exit →
      (∃ buffers, exit = .ok buffers) ∨ exit = .error .notEnoughDestinationBuffer) :
    TellsStall limit HasToEmit First (codecCalls gvl turns) exit := by
  have noTruncation : (∃ unit, HasToEmit unit ∧ limit < unit.length) →
      ∀ buffers, exit ≠ .ok buffers := by
    rintro ⟨unit, emits, long⟩ buffers ok
    exact absurd (ended buffers ok unit emits) (Nat.not_le_of_lt long)
  refine ⟨?_, ?_, undisturbed, stalled, noRetry.filter _, noTruncation⟩
  · intro largest within fits stops
    obtain ⟨_, _, unit, _, _, first⟩ := stalled stops
    obtain ⟨emits, long⟩ := longer first
    have fit := fits unit emits
    omega
  · intro calm
    constructor
    · intro stops
      obtain ⟨_, _, unit, _, _, first⟩ := stalled stops
      exact ⟨unit, longer first⟩
    · intro tooLong
      rcases undisturbed calm with ⟨buffers, ok⟩ | stops
      · exact absurd ok (noTruncation tooLong buffers)
      · exact stops

/-! ## How a run ends -/

theorem shrink_not_stalled {before : Buffers σ p} {exit : Exit (Buffers σ p)}
    (shrink : Shrink before exit) : exit ≠ .error .notEnoughDestinationBuffer := by
  cases shrink <;> simp

theorem shrink_undisturbed {before : Buffers σ p} {exit : Exit (Buffers σ p)}
    {calls : List (LoopTurn σ ε p)} (shrink : Shrink before exit)
    (undisturbed : Undisturbed calls exit) : ∃ buffers, exit = .ok buffers := by
  cases shrink with
  | ok => exact ⟨_, rfl⟩
  | noMemory => exact absurd rfl undisturbed.memory
  | raised => exact absurd rfl (undisturbed.returned _)

section Endings

variable {limit : Nat} {HasToEmit : List Byte → Prop} {First : List Byte → List Byte → Prop}
  {gvl : Bool} {exit : Exit (Buffers σ p)}

/-- A run that gets to the last resize has emitted all units. -/
theorem TellsStall.of_shrink {turns : List (LoopTurn σ ε p)} {before : Buffers σ p}
    (longer : ∀ {out unit}, First out unit → HasToEmit unit ∧ limit < unit.length)
    (noRetry : turns.Pairwise fun earlier _ => ¬ earlier.Stalls limit)
    (fit : ∀ unit, HasToEmit unit → unit.length ≤ limit) (shrink : Shrink before exit) :
    TellsStall limit HasToEmit First (codecCalls gvl turns) exit := by
  apply of_parts longer noRetry
  · exact fun stops => absurd stops (shrink_not_stalled shrink)
  · exact fun _ _ => fit
  · exact fun undisturbed => .inl (shrink_undisturbed shrink undisturbed)

/-- A run that leaves in a loop, after the turns `before` of the loops that went well. -/
theorem TellsStall.of_loop {native : Native σ Byte Byte ε} {resultOf : ε → ExtError}
    {fuel : Nat} {start : Buffers σ p} {env after : Environment}
    {ahead : σ → List Byte → Stream'.Seq (List Byte)} (before : List (LoopTurn σ ε p))
    (longer : ∀ {out unit}, First out unit → HasToEmit unit ∧ limit < unit.length)
    (noRetry : (before ++ loopTurns gvl native resultOf limit fuel (start, env)).Pairwise
      fun earlier _ => ¬ earlier.Stalls limit)
    (law : HasUnits native ahead) (honest : ∀ code, resultOf code ≠ .notEnoughDestinationBuffer)
    (window : start.WindowIsTail limit) (small : limit ≤ p.maxStringLength)
    (first : ∀ {out unit},
      FirstLonger limit (ahead start.state start.remainingSource) out unit →
        First (start.output ++ out) unit)
    (executed : run (bufferedTurn gvl native resultOf limit) fuel (start, env) =
      some (exit, after))
    (abnormal : ∀ buffers, exit ≠ .ok buffers) :
    TellsStall limit HasToEmit First
      (codecCalls gvl (before ++ loopTurns gvl native resultOf limit fuel (start, env))) exit := by
  apply of_parts longer noRetry
  · rintro rfl
    obtain ⟨earlier, last, out, unit, calls, stalls, output, found⟩ :=
      loop_stalls law honest window small executed
    refine ⟨codecCalls gvl before ++ earlier, last, unit, ?_, stalls, output ▸ first found⟩
    rw [codecCalls_append, calls, List.append_assoc]
  · exact fun buffers ok => absurd ok (abnormal buffers)
  · exact fun undisturbed => loop_undisturbed window small executed undisturbed.second

end Endings

/-! ## Whole runs -/

section Decompress

variable {codec : DecompressorCodec σ} {fuel : Nat} {state : σ} {source : List Byte}
  {destinationValue : RString p} {gvl : Bool} {env after : Environment}
  {exit : Exit (Buffers σ p)}

theorem decompress_stalls (units : DecompressorUnits codec)
    (returned : decompress codec fuel state source destinationValue destinationValue.length gvl
      env = some (exit, after)) :
    TellsStall destinationValue.length (units.HasToEmit state source)
      (units.FirstLonger destinationValue.length state source)
      (codecCalls gvl (decompressTurns codec fuel state source destinationValue
        destinationValue.length gvl env)) exit := by
  have small : destinationValue.length ≤ p.maxStringLength := destinationValue.length_le
  have window := Buffers.start_window state source destinationValue
  have longer : ∀ {out unit}, units.FirstLonger destinationValue.length state source out unit →
      units.HasToEmit state source unit ∧ destinationValue.length < unit.length :=
    fun first => ⟨first.mem, first.longer⟩
  have noRetry : (decompressTurns codec fuel state source destinationValue destinationValue.length
      gvl env).Pairwise fun earlier _ => ¬ earlier.Stalls destinationValue.length :=
    loop_stalls_last window small
  rcases decompress_runs returned with ⟨executed, abnormal⟩ | ⟨buffers, middle, executed, shrunk⟩
  · refine .of_loop [] longer noRetry units.decompress (decompressResult_ne (by decide)) window
      small ?_ executed abnormal
    intro out unit first
    rwa [Buffers.start_output, List.nil_append]
  · cases bufferedLoop_result window small (.of_run executed) with
    | ok _ _ tail =>
        have fit := loop_units_fit units.decompress window small executed
        exact .of_shrink longer noRetry fit (Buffers.shrink_cases tail shrunk)

end Decompress

section Compress

variable {codec : CompressorCodec σ} {fuel : Nat} {state : σ} {source : List Byte}
  {destinationValue : RString p} {gvl : Bool} {env after : Environment}
  {exit : Exit (Buffers σ p)}

/-- All units of a compression fit, where both loops have ended with 0. -/
theorem compress_units_fit (units : CompressorUnits codec) {fed flushed : Buffers σ p}
    {fedEnv flushedEnv : Environment}
    (feeding : run (bufferedCompress gvl codec.compress destinationValue.length) fuel
      (.start state source destinationValue destinationValue.length, env) = some (.ok fed, fedEnv))
    (finishing : run (bufferedCompress gvl codec.finishNative destinationValue.length) fuel
      (fed, fedEnv) = some (.ok flushed, flushedEnv)) :
    ∀ unit, units.HasToEmit state source unit → unit.length ≤ destinationValue.length := by
  have small : destinationValue.length ≤ p.maxStringLength := destinationValue.length_le
  have window := Buffers.start_window state source destinationValue
  cases bufferedLoop_result window small (.of_run feeding) with
  | ok fedEnds _ fedWindow =>
      rintro unit (member | ⟨_, middle, _, complete, member⟩)
      · exact loop_units_fit units.compress window small feeding unit member
      · rw [units.agree complete fedEnds] at member
        exact loop_units_fit units.finish.ofFinish fedWindow small finishing unit member

theorem compress_stalls (units : CompressorUnits codec)
    (returned : compress codec fuel state source destinationValue destinationValue.length gvl
      env = some (exit, after)) :
    TellsStall destinationValue.length (units.HasToEmit state source)
      (units.FirstLonger destinationValue.length state source)
      (codecCalls gvl (compressTurns codec fuel state source destinationValue
        destinationValue.length gvl env)) exit := by
  have small : destinationValue.length ≤ p.maxStringLength := destinationValue.length_le
  have window := Buffers.start_window state source destinationValue
  have unexpected : ∀ _ : CompressorError, ExtError.unexpected ≠ .notEnoughDestinationBuffer :=
    fun _ impossible => by cases impossible
  have feedingRetry : (loopTurns gvl codec.compress (fun _ => .unexpected) destinationValue.length
      fuel (.start state source destinationValue destinationValue.length, env)).Pairwise
        fun earlier _ => ¬ earlier.Stalls destinationValue.length :=
    loop_stalls_last window small
  rcases compress_runs returned with ⟨feeding, abnormal⟩ | ⟨fed, fedEnv, feeding, onward⟩
  · rw [compressTurns_unfed (unfed_of_abnormal feeding abnormal)]
    refine .of_loop [] CompressorUnits.FirstLonger.hasToEmit feedingRetry units.compress unexpected
      window small ?_ feeding abnormal
    intro out unit first
    rw [Buffers.start_output, List.nil_append]
    exact .feeding first
  · cases bufferedLoop_result window small (.of_run feeding) with
    | ok fedEnds fedOutput fedWindow =>
        rw [Buffers.start_output, List.nil_append] at fedOutput
        rw [compressTurns_fed feeding]
        have finishingRetry : (loopTurns gvl codec.finishNative (fun _ => .unexpected)
            destinationValue.length fuel (fed, fedEnv)).Pairwise
              fun earlier _ => ¬ earlier.Stalls destinationValue.length :=
          loop_stalls_last fedWindow small
        have noRetry := List.pairwise_append.mpr ⟨feedingRetry, finishingRetry,
          fun earlier member _ _ => loop_never_stalls window small feeding earlier member⟩
        rcases onward with ⟨finishing, abnormal⟩ | ⟨flushed, flushedEnv, finishing, shrunk⟩
        · refine .of_loop _ CompressorUnits.FirstLonger.hasToEmit noRetry units.finish.ofFinish
            unexpected fedWindow small ?_ finishing abnormal
          intro out unit first
          have fit := loop_units_fit units.compress window small feeding
          rw [fedOutput]
          exact .flushing fedEnds fit first
        · cases bufferedLoop_result fedWindow small (.of_run finishing) with
          | ok _ _ tail =>
              exact .of_shrink CompressorUnits.FirstLonger.hasToEmit noRetry
                (compress_units_fit units feeding finishing) (Buffers.shrink_cases tail shrunk)

end Compress

/-! ## What else may stop a run -/

/-- Nothing but the codec can stop these calls: memory suffices, and nobody interrupts. -/
structure LeftAlone (env : Environment) (limit : Nat) (calls : List (LoopTurn σ ε p)) : Prop where
  quiet : env.Quiet
  room : bytesWritten calls + limit ≤ p.maxStringLength

/-- A run ended with `exit`, and it was a short buffer just where `TellsStall` says so. -/
structure StallsExactly (env : Environment) (limit : Nat) (HasToEmit : List Byte → Prop)
    (First : List Byte → List Byte → Prop) (calls : List (LoopTurn σ ε p))
    (exit : Exit (Buffers σ p)) : Prop extends TellsStall limit HasToEmit First calls exit where
  /-- Memory that lacks is the fault of the surroundings, or of a string that gets too long. -/
  memory : exit = .error .allocateFailed → ¬ LeftAlone env limit calls
  /-- So is an exception. -/
  returned : ∀ exception, exit = .raised exception → ¬ LeftAlone env limit calls
  /-- Without these, and without an error of the codec, the answer is exact. -/
  left_alone : LeftAlone env limit calls →
    (∀ call ∈ calls, ∀ code, call.reply.status ≠ .error code) →
    ((∃ buffers, exit = .ok buffers) ∨ exit = .error .notEnoughDestinationBuffer) ∧
      (exit = .error .notEnoughDestinationBuffer ↔ ∃ unit, HasToEmit unit ∧ limit < unit.length)

theorem TellsStall.exactly {env after : Environment} {limit : Nat} {HasToEmit : List Byte → Prop}
    {First : List Byte → List Byte → Prop} {calls : List (LoopTurn σ ε p)}
    {exit : Exit (Buffers σ p)} (tells : TellsStall limit HasToEmit First calls exit)
    (decided : LeftAlone env limit calls → DecidedByCodec (exit, after)) :
    StallsExactly env limit HasToEmit First calls exit := by
  refine ⟨tells, ?_, ?_, ?_⟩
  · exact fun lacks alone => (decided alone).2.1 lacks
  · exact fun exception raised alone => (decided alone).2.2 exception raised
  · intro alone noError
    obtain ⟨_, memory, returned⟩ := decided alone
    have undisturbed : Undisturbed calls exit := ⟨memory, returned, noError⟩
    exact ⟨tells.ends undisturbed, tells.exactly_when undisturbed⟩

/--
**A destination buffer is told to be too short exactly where it is.**  Let the codec be any
transducer whose output consists of units.  Then for every source and every buffer length,
`compress` and `decompress` come to an end, and tell so if and only if a unit they have to
emit is longer than the buffer, at the first such unit and after an untouched window; and
nothing but the surroundings, a string beyond all bounds or an error of the codec can stop
them before.
-/
theorem not_enough_destination_iff_unit_longer {compressor : CompressorCodec σ}
    {decompressor : DecompressorCodec τ} (compressorUnits : CompressorUnits compressor)
    (decompressorUnits : DecompressorUnits decompressor) (source : List Byte)
    (destinationValue : RString p) (gvl : Bool) (env : Environment) :
    (∀ state,
      TurnsOf
        (fun fuel => compress compressor fuel state source destinationValue
          destinationValue.length gvl env)
        (fun fuel => compressTurns compressor fuel state source destinationValue
          destinationValue.length gvl env)
        (CompressMakes compressor destinationValue.length gvl
          (.start state source destinationValue destinationValue.length, env)) ∧
      (∃ fuel result, compress compressor fuel state source destinationValue
        destinationValue.length gvl env = some result) ∧
      ∀ fuel exit after,
        compress compressor fuel state source destinationValue destinationValue.length gvl env =
          some (exit, after) →
        StallsExactly env destinationValue.length (compressorUnits.HasToEmit state source)
          (compressorUnits.FirstLonger destinationValue.length state source)
          (codecCalls gvl (compressTurns compressor fuel state source destinationValue
            destinationValue.length gvl env)) exit) ∧
    (∀ state,
      TurnsOf
        (fun fuel => decompress decompressor fuel state source destinationValue
          destinationValue.length gvl env)
        (fun fuel => decompressTurns decompressor fuel state source destinationValue
          destinationValue.length gvl env)
        (DecompressMakes decompressor destinationValue.length gvl
          (.start state source destinationValue destinationValue.length, env)) ∧
      (∃ fuel result, decompress decompressor fuel state source destinationValue
        destinationValue.length gvl env = some result) ∧
      ∀ fuel exit after,
        decompress decompressor fuel state source destinationValue destinationValue.length gvl
          env = some (exit, after) →
        StallsExactly env destinationValue.length (decompressorUnits.HasToEmit state source)
          (decompressorUnits.FirstLonger destinationValue.length state source)
          (codecCalls gvl (decompressTurns decompressor fuel state source destinationValue
            destinationValue.length gvl env)) exit) := by
  constructor
  · intro state
    refine ⟨compress_turnsOf compressor state source destinationValue _ gvl env,
      compress_returns state source destinationValue gvl env, ?_⟩
    intro fuel exit after returned
    exact (compress_stalls compressorUnits returned).exactly
      fun alone => compress_room alone.quiet returned alone.room
  · intro state
    refine ⟨decompress_turnsOf decompressor state source destinationValue _ gvl env,
      decompress_returns state source destinationValue gvl env, ?_⟩
    intro fuel exit after returned
    exact (decompress_stalls decompressorUnits returned).exactly
      fun alone => decompress_room alone.quiet returned alone.room

/-! ## The units of a concrete codec -/

/-- The stored codec has units, the magic header being the longest. -/
def storedUnits : CompressorUnits StoredCodec.compressor :=
  .ofMachine (rfl : StoredCodec.compressor.compress = native StoredCodec.compressing)
    (rfl : StoredCodec.compressor.finish = finishCall StoredCodec.compressing id)

theorem storedUnits_le {state : StoredCodec.Compressing} {source unit : List Byte}
    (emits : storedUnits.HasToEmit state source unit) : unit.length ≤ 2 := by
  rcases emits with feeding | ⟨_, middle, _, _, flushing⟩
  · obtain ⟨last, next, moved⟩ := exists_move_of_mem_ahead feeding
    exact StoredCodec.compressing_units moved
  · obtain ⟨last, next, moved⟩ := exists_move_of_mem_ahead flushing
    exact finishing_units StoredCodec.compressing_units moved

def storedTextUnits : DecompressorUnits StoredCodec.decompressor :=
  .ofMachine (rfl : StoredCodec.decompressor.decompress = native StoredCodec.decompressing)

theorem storedTextUnits_le {state : StoredCodec.Decompressing} {source unit : List Byte}
    (emits : storedTextUnits.HasToEmit state source unit) : unit.length ≤ 1 := by
  obtain ⟨last, next, moved⟩ := exists_move_of_mem_ahead emits
  exact StoredCodec.decompressing_units moved

/-- The error code with which a run has ended, if it has ended with one. -/
def returnedCode : Option (Exit (Buffers σ p) × Environment) → Option ExtError
  | some (.error code, _) => some code
  | _ => none

theorem exists_of_returnedCode {run : Option (Exit (Buffers σ p) × Environment)}
    {code : ExtError} (returned : returnedCode run = some code) :
    ∃ after, run = some (.error code, after) := by
  unfold returnedCode at returned
  split at returned
  · cases returned
    exact ⟨_, rfl⟩
  · cases returned

/-- One byte does not hold the magic header; two bytes do, and one is enough for its text. -/
theorem not_enough_destination_iff_unit_longer_header :
    (∃ unit, storedUnits.HasToEmit (.header 0x90) [7] unit ∧ 1 < unit.length) ∧
    (∃ fuel exit after,
      compress (p := .linux64) StoredCodec.compressor fuel (.header 0x90) [7] (.ofBytes [0, 0]) 2
        false .calm = some (exit, after) ∧ exit ≠ .error .notEnoughDestinationBuffer) ∧
    ∃ fuel exit after,
      decompress (p := .linux64) StoredCodec.decompressor fuel .header [0x1f, 0x9d, 0x90, 7]
        (.ofBytes [0]) 1 false .calm = some (exit, after) ∧
          exit ≠ .error .notEnoughDestinationBuffer := by
  refine ⟨?_, ?_, ?_⟩
  · have found : returnedCode (compress (p := .linux64) StoredCodec.compressor 4 (.header 0x90) [7]
        (.ofBytes [0]) 1 false .calm) = some .notEnoughDestinationBuffer := by
      decide +kernel
    obtain ⟨after, returned⟩ := exists_of_returnedCode found
    have stalls := ((not_enough_destination_iff_unit_longer storedUnits storedTextUnits [7]
      (.ofBytes [0]) false .calm).1 _).2.2 _ _ _ returned
    obtain ⟨_, _, unit, _, _, first⟩ := stalls.at_first rfl
    exact ⟨unit, first.hasToEmit⟩
  · obtain ⟨_, ⟨fuel, ⟨exit, after⟩, returned⟩, stalls⟩ :=
      (not_enough_destination_iff_unit_longer (p := .linux64) storedUnits storedTextUnits [7]
        (.ofBytes [0, 0]) false .calm).1 (.header 0x90)
    refine ⟨fuel, exit, after, returned, ?_⟩
    exact (stalls _ _ _ returned).enough 2 (Nat.le_refl 2) fun _ => storedUnits_le
  · obtain ⟨_, ⟨fuel, ⟨exit, after⟩, returned⟩, stalls⟩ :=
      (not_enough_destination_iff_unit_longer (p := .linux64) storedUnits storedTextUnits
        [0x1f, 0x9d, 0x90, 7] (.ofBytes [0]) false .calm).2 .header
    refine ⟨fuel, exit, after, returned, ?_⟩
    exact (stalls _ _ _ returned).enough 1 (Nat.le_refl 1) fun _ => storedTextUnits_le

end RubyLzws.Results.DestinationStall
