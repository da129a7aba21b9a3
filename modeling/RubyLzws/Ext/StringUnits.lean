import RubyLzws.Ext.StringCalls
import RubyLzws.Library.OutputUnits

/-!
# The string loops over a codec that emits units

What the turns of a loop make of the units ahead: each call takes the next of them as
long as they fit, so that a loop either gets to the end of the units or stops at the
first one that a fresh window does not hold.
-/

namespace RubyLzws.Ext

open Stream' Library.Transducer Library.Loop Library.OutputUnits Library.UnitMachine

variable {σ ε : Type} {p : Platform}

/-! ## The units of a codec -/

/-- A compressor whose output consists of units: those of its feeding, then those of its finish. -/
structure CompressorUnits (codec : CompressorCodec σ) where
  feeding : σ → List Byte → Seq (List Byte)
  flushing : σ → Seq (List Byte)
  compress : HasUnits codec.compress feeding
  finish : FinishHasUnits codec.finish flushing
  /-- How feeding was cut into windows makes no difference to what finishing has to emit. -/
  agree : ∀ {start one two : σ} {source fed other rest left : List Byte},
    Ends codec.compress .whole start source fed (.finished one rest) →
    Ends codec.compress .whole start source other (.finished two left) →
    flushing one = flushing two

/-- A decompressor whose output consists of units. -/
structure DecompressorUnits (codec : DecompressorCodec σ) where
  ahead : σ → List Byte → Seq (List Byte)
  decompress : HasUnits codec.decompress ahead

/-- A unit that compressing `source` from `state` has to emit. -/
def CompressorUnits.HasToEmit {codec : CompressorCodec σ} (units : CompressorUnits codec)
    (state : σ) (source unit : List Byte) : Prop :=
  unit ∈ units.feeding state source ∨
    ∃ fed middle rest, Ends codec.compress .whole state source fed (.finished middle rest) ∧
      unit ∈ units.flushing middle

/-- A unit that decompressing `source` from `state` has to emit. -/
def DecompressorUnits.HasToEmit {codec : DecompressorCodec σ} (units : DecompressorUnits codec)
    (state : σ) (source unit : List Byte) : Prop := unit ∈ units.ahead state source

/-- The first unit of a compression that is longer than `limit`, and the output before it. -/
inductive CompressorUnits.FirstLonger {codec : CompressorCodec σ} (units : CompressorUnits codec)
    (limit : Nat) (state : σ) (source : List Byte) : List Byte → List Byte → Prop where
  | feeding {out unit : List Byte}
      (first : Library.OutputUnits.FirstLonger limit (units.feeding state source) out unit) :
      CompressorUnits.FirstLonger units limit state source out unit
  | flushing {fed out unit rest : List Byte} {middle : σ}
      (complete : Ends codec.compress .whole state source fed (.finished middle rest))
      (fit : ∀ unit ∈ units.feeding state source, unit.length ≤ limit)
      (first : Library.OutputUnits.FirstLonger limit (units.flushing middle) out unit) :
      CompressorUnits.FirstLonger units limit state source (fed ++ out) unit

/-- The first unit of a decompression that is longer than `limit`, and the output before it. -/
def DecompressorUnits.FirstLonger {codec : DecompressorCodec σ} (units : DecompressorUnits codec)
    (limit : Nat) (state : σ) (source out unit : List Byte) : Prop :=
  Library.OutputUnits.FirstLonger limit (units.ahead state source) out unit

theorem CompressorUnits.FirstLonger.hasToEmit {codec : CompressorCodec σ}
    {units : CompressorUnits codec} {limit : Nat} {state : σ} {source out unit : List Byte}
    (first : units.FirstLonger limit state source out unit) :
    units.HasToEmit state source unit ∧ limit < unit.length := by
  cases first with
  | feeding first => exact ⟨.inl first.mem, first.longer⟩
  | flushing complete _ first => exact ⟨.inr ⟨_, _, _, complete, first.mem⟩, first.longer⟩

/-- A unit machine with a machine for finishing is a compressor with units. -/
def CompressorUnits.ofMachine {codec : CompressorCodec σ}
    {machine : Machine σ Byte Byte CompressorError} {atEnd : σ → σ}
    (compress : codec.compress = native machine) (finish : codec.finish = finishCall machine atEnd) :
    CompressorUnits codec where
  feeding := Library.OutputUnits.ahead machine
  flushing state := Library.OutputUnits.ahead (finishing machine atEnd) state []
  compress := compress ▸ native_hasUnits machine
  finish := finish ▸ finishCall_hasUnits machine atEnd
  agree := by
    intro start one two source fed other rest left first second
    rw [compress] at first second
    have still : Mode.whole = .cut → source = [] → Waiting machine start [] :=
      fun impossible => by cases impossible
    obtain ⟨_, same⟩ := (LeadsTo.of_ends first still).unique (LeadsTo.of_ends second still)
    cases same
    rfl

/-- A unit machine is a decompressor with units. -/
def DecompressorUnits.ofMachine {codec : DecompressorCodec σ}
    {machine : Machine σ Byte Byte DecompressorError}
    (decompress : codec.decompress = native machine) : DecompressorUnits codec where
  ahead := Library.OutputUnits.ahead machine
  decompress := decompress ▸ native_hasUnits machine

/-! ## Turns -/

/-- A call that got nothing into a full fresh window, and asked for a larger one. -/
structure LoopTurn.Stalls (turn : LoopTurn σ ε p) (destinationBufferLength : Nat) : Prop where
  status : turn.reply.status = .needsMore
  fresh : turn.buffers.remainingDestinationBufferLength = destinationBufferLength
  nothing : turn.reply.written = []

/-- No allocation failed, no codec call did, and no exception left. -/
structure Undisturbed (calls : List (LoopTurn σ ε p)) (exit : Exit (Buffers σ p)) : Prop where
  memory : exit ≠ .error .allocateFailed
  returned : ∀ exception, exit ≠ .raised exception
  codec : ∀ call ∈ calls, ∀ code, call.reply.status ≠ .error code

theorem Undisturbed.second {gvl : Bool} {first second : List (LoopTurn σ ε p)}
    {exit : Exit (Buffers σ p)} (undisturbed : Undisturbed (codecCalls gvl (first ++ second)) exit) :
    Undisturbed (codecCalls gvl second) exit := by
  refine ⟨undisturbed.memory, undisturbed.returned, ?_⟩
  intro call member
  apply undisturbed.codec
  rw [codecCalls_append]
  exact List.mem_append_right _ member

/-! ## One loop -/

section Loop

variable {gvl : Bool} {native : Native σ Byte Byte ε} {resultOf : ε → ExtError}
  {destinationBufferLength fuel : Nat} {start : Buffers σ p} {env : Environment}
  {ahead : σ → List Byte → Seq (List Byte)}

/--
The loop invariant: the output since `start` are the first units that were ahead there,
none longer than a fresh window, and the other units are still ahead.
-/
structure UnitInvariant (ahead : σ → List Byte → Seq (List Byte)) (destinationBufferLength : Nat)
    (start buffers : Buffers σ p) (out : List Byte) : Prop where
  window : buffers.WindowIsTail destinationBufferLength
  output : buffers.output = start.output ++ out
  progress : Progress destinationBufferLength (ahead start.state start.remainingSource)
    (ahead buffers.state buffers.remainingSource) out

theorem UnitInvariant.initial (ahead : σ → List Byte → Seq (List Byte))
    (window : start.WindowIsTail destinationBufferLength) :
    UnitInvariant ahead destinationBufferLength start start [] :=
  ⟨window, (List.append_nil _).symm, .start _ _⟩

/-- A codec call takes the next units. -/
theorem UnitInvariant.counted {buffers : Buffers σ p} {out : List Byte}
    (law : HasUnits native ahead)
    (invariant : UnitInvariant ahead destinationBufferLength start buffers out) :
    UnitInvariant ahead destinationBufferLength start (buffers.counted native)
      (out ++ (buffers.reply native).written) := by
  constructor
  · exact invariant.window.counted
  · rw [invariant.window.counted_output, invariant.output, List.append_assoc]
  · have emits := law buffers.state buffers.remainingSource
      buffers.remainingDestinationBufferLength
    exact invariant.progress.call emits invariant.window.window_le

theorem UnitInvariant.again {buffers next : Buffers σ p} {env after : Environment}
    {out : List Byte} (law : HasUnits native ahead)
    (small : destinationBufferLength ≤ p.maxStringLength)
    (invariant : UnitInvariant ahead destinationBufferLength start buffers out)
    (turned : bufferedTurn gvl native resultOf destinationBufferLength (buffers, env) =
      .again (next, after)) :
    UnitInvariant ahead destinationBufferLength start next
      (out ++ (buffers.reply native).written) := by
  obtain ⟨_, _, grown⟩ := bufferedTurn_again invariant.window small turned
  have counted : UnitInvariant ahead destinationBufferLength start (buffers.counted native)
      (out ++ (buffers.reply native).written) := invariant.counted law
  constructor
  · exact grown.window
  · rw [grown.output]
    exact counted.output
  · rw [grown.state, grown.remainingSource]
    exact counted.progress

/-- The invariant holds where a turn begins. -/
theorem loopTurns_units (law : HasUnits native ahead)
    (window : start.WindowIsTail destinationBufferLength)
    (small : destinationBufferLength ≤ p.maxStringLength) :
    ∀ turn ∈ loopTurns gvl native resultOf destinationBufferLength fuel (start, env),
      turn.native = native ∧
        ∃ out, UnitInvariant ahead destinationBufferLength start turn.buffers out := by
  refine loopTurns_invariant
    (fun buffers => ∃ out, UnitInvariant ahead destinationBufferLength start buffers out) ?_
    ⟨[], .initial ahead window⟩
  rintro buffers env next after ⟨out, invariant⟩ turned
  exact ⟨_, invariant.again law small turned⟩

/-- The last turn of a loop, with what it began with and how it left. -/
theorem loopTurns_last {exit : Exit (Buffers σ p)} {after : Environment}
    (law : HasUnits native ahead) (window : start.WindowIsTail destinationBufferLength)
    (small : destinationBufferLength ≤ p.maxStringLength)
    (executed : run (bufferedTurn gvl native resultOf destinationBufferLength) fuel (start, env) =
      some (exit, after)) :
    ∃ earlier last lastEnv out,
      loopTurns gvl native resultOf destinationBufferLength fuel (start, env) =
        earlier ++ [⟨native, last, lastEnv⟩] ∧
      UnitInvariant ahead destinationBufferLength start last out ∧
      bufferedTurn gvl native resultOf destinationBufferLength (last, lastEnv) =
        .leave (exit, after) ∧
      TurnResult last native resultOf destinationBufferLength (.leave (exit, after)) := by
  obtain ⟨earlier, last, lastEnv, whole, left⟩ := loopTurns_of_run executed
  obtain ⟨_, out, invariant⟩ := loopTurns_units law window small _
    (whole ▸ List.mem_append_right _ List.mem_cons_self)
  have result := bufferedTurn_result native resultOf gvl lastEnv invariant.window small
  rw [left] at result
  exact ⟨earlier, last, lastEnv, out, whole, invariant, left, result⟩

/-- A loop that ends with 0 has emitted all units, each of which fitted a fresh window. -/
theorem loop_units_fit {buffers : Buffers σ p} {after : Environment}
    (law : HasUnits native ahead) (window : start.WindowIsTail destinationBufferLength)
    (small : destinationBufferLength ≤ p.maxStringLength)
    (executed : run (bufferedTurn gvl native resultOf destinationBufferLength) fuel (start, env) =
      some (.ok buffers, after)) :
    ∀ unit ∈ ahead start.state start.remainingSource, unit.length ≤ destinationBufferLength := by
  obtain ⟨_, last, _, out, _, invariant, _, result⟩ := loopTurns_last law window small executed
  cases result with
  | done status =>
      have counted : UnitInvariant ahead destinationBufferLength start (last.counted native)
          (out ++ (last.reply native).written) := invariant.counted law
      have emits := law last.state last.remainingSource last.remainingDestinationBufferLength
      have nothing := emits.complete fun more => by
        rw [Buffers.reply, more] at status
        cases status
      have progress := counted.progress
      rw [Buffers.counted_state, Buffers.counted_remainingSource] at progress
      rw [Buffers.reply, nothing] at progress
      exact progress.complete

/--
A loop that ends for want of a longer buffer has met a unit that no fresh window holds, in
the last of its codec calls, and has emitted just the units before.
-/
theorem loop_stalls {after : Environment} (law : HasUnits native ahead)
    (honest : ∀ code, resultOf code ≠ .notEnoughDestinationBuffer)
    (window : start.WindowIsTail destinationBufferLength)
    (small : destinationBufferLength ≤ p.maxStringLength)
    (executed : run (bufferedTurn gvl native resultOf destinationBufferLength) fuel (start, env) =
      some (.error .notEnoughDestinationBuffer, after)) :
    ∃ earlier last out unit,
      codecCalls gvl (loopTurns gvl native resultOf destinationBufferLength fuel (start, env)) =
        earlier ++ [last] ∧
      last.Stalls destinationBufferLength ∧ last.buffers.output = start.output ++ out ∧
      FirstLonger destinationBufferLength (ahead start.state start.remainingSource) out unit := by
  obtain ⟨earlier, last, lastEnv, out, whole, invariant, left, result⟩ :=
    loopTurns_last law window small executed
  have called : LoopTurn.calls gvl ⟨native, last, lastEnv⟩ = true :=
    calls_of_turn fun _ raised => by
      rw [left] at raised
      cases raised
  generalize leaving : Turn.leave (Exit.error ExtError.notEnoughDestinationBuffer, after) = turned
    at result
  cases result with
  | interrupted => cases leaving
  | @failed env code status =>
      injection leaving with same
      injection same with same _
      injection same with same
      exact absurd same.symm (honest code)
  | done => cases leaving
  | stalled status fresh nothing =>
      have emits := law last.state last.remainingSource last.remainingDestinationBufferLength
      have first : ∃ unit, FirstLonger destinationBufferLength
          (ahead start.state start.remainingSource) out unit := by
        rw [Buffers.reply] at status nothing
        rw [fresh] at emits status nothing
        exact invariant.progress.stalled emits status nothing
      obtain ⟨unit, first⟩ := first
      refine ⟨codecCalls gvl earlier, ⟨native, last, lastEnv⟩, out, unit, ?_,
        ⟨status, fresh, nothing⟩, invariant.output, first⟩
      rw [whole, codecCalls_append]
      exact congrArg (codecCalls gvl earlier ++ ·) (List.filter_cons_of_pos called)
  | again => cases leaving
  | noMemory => cases leaving
  | raised => cases leaving

/-- A call that stalls is not followed by another turn. -/
theorem loop_stalls_last (window : start.WindowIsTail destinationBufferLength)
    (small : destinationBufferLength ≤ p.maxStringLength) :
    (loopTurns gvl native resultOf destinationBufferLength fuel (start, env)).Pairwise
      fun earlier _ => ¬ earlier.Stalls destinationBufferLength := by
  rw [loopTurns, List.pairwise_map]
  apply visited_pairwise
    (fun state : Buffers σ p × Environment => state.1.WindowIsTail destinationBufferLength)
    _ _ _ _ window
  · rintro ⟨buffers, env⟩ ⟨next, after⟩ tail turned
    exact (bufferedTurn_again tail small turned).2.2.window
  · rintro ⟨buffers, env⟩ ⟨next, after⟩ tail turned stalls
    obtain ⟨_, touched, _⟩ := bufferedTurn_again tail small turned
    have nothing : (buffers.reply native).written = [] := stalls.nothing
    rw [Buffers.counted_remaining, nothing, List.length_nil, Nat.sub_zero] at touched
    exact touched stalls.fresh
  · exact fun _ _ _ _ held _ => held

/-- In a loop that ends with 0 no call stalls. -/
theorem loop_never_stalls {buffers : Buffers σ p} {after : Environment}
    (window : start.WindowIsTail destinationBufferLength)
    (small : destinationBufferLength ≤ p.maxStringLength)
    (executed : run (bufferedTurn gvl native resultOf destinationBufferLength) fuel (start, env) =
      some (.ok buffers, after)) :
    ∀ turn ∈ loopTurns gvl native resultOf destinationBufferLength fuel (start, env),
      ¬ turn.Stalls destinationBufferLength := by
  obtain ⟨earlier, last, lastEnv, whole, left⟩ := loopTurns_of_run executed
  have pairs : (loopTurns gvl native resultOf destinationBufferLength fuel (start, env)).Pairwise
      fun earlier _ => ¬ earlier.Stalls destinationBufferLength := loop_stalls_last window small
  obtain ⟨_, tail, _⟩ := loopTurns_window window small _
    (whole ▸ List.mem_append_right _ List.mem_cons_self)
  have result := bufferedTurn_result native resultOf gvl lastEnv tail small
  rw [left] at result
  rw [whole] at pairs ⊢
  intro turn member
  rcases List.mem_append.mp member with before | ends
  · exact (List.pairwise_append.mp pairs).2.2 turn before _ List.mem_cons_self
  · rw [List.mem_singleton] at ends
    subst ends
    cases result with
    | done status =>
        intro stalls
        have more : (last.reply native).status = .needsMore := stalls.status
        rw [more] at status
        cases status

/-- An undisturbed loop ends with 0, or for want of a longer buffer. -/
theorem loop_undisturbed {exit : Exit (Buffers σ p)} {after : Environment}
    (window : start.WindowIsTail destinationBufferLength)
    (small : destinationBufferLength ≤ p.maxStringLength)
    (executed : run (bufferedTurn gvl native resultOf destinationBufferLength) fuel (start, env) =
      some (exit, after))
    (undisturbed : Undisturbed (codecCalls gvl
      (loopTurns gvl native resultOf destinationBufferLength fuel (start, env))) exit) :
    (∃ buffers, exit = .ok buffers) ∨ exit = .error .notEnoughDestinationBuffer := by
  obtain ⟨earlier, last, lastEnv, whole, left⟩ := loopTurns_of_run executed
  obtain ⟨_, tail, _⟩ := loopTurns_window window small _
    (whole ▸ List.mem_append_right _ List.mem_cons_self)
  have result := bufferedTurn_result native resultOf gvl lastEnv tail small
  rw [left] at result
  cases result with
  | interrupted => exact absurd rfl (undisturbed.returned _)
  | @failed _ code status =>
      have called : LoopTurn.calls gvl ⟨native, last, lastEnv⟩ = true :=
        calls_of_turn fun _ raised => by
          rw [left] at raised
          cases raised
      refine absurd status (undisturbed.codec ⟨native, last, lastEnv⟩ ?_ code)
      rw [whole]
      exact List.mem_filter.mpr ⟨List.mem_append_right _ List.mem_cons_self, called⟩
  | @done => exact .inl ⟨_, rfl⟩
  | stalled => exact .inr rfl
  | noMemory => exact absurd rfl undisturbed.memory
  | raised => exact absurd rfl (undisturbed.returned _)

end Loop

end RubyLzws.Ext
