import RubyLzws.Ext.String

/-!
# What the loops over the codec do

A turn is inverted once: what can follow from it, and under which answer of the
codec.  From that comes the account of whole loops: the codec calls of a loop are
a session that is shown the whole source each time, and the string below
`destination_length` is what the session emitted.
-/

namespace RubyLzws.Ext

open Library.Transducer Library.Loop

variable {σ ε : Type} {p : Platform}

/-- The bytes of the string below `destination_length`. -/
def Buffers.output (buffers : Buffers σ p) : List Byte :=
  buffers.destinationValue.bytes.take buffers.destinationLength

/-- The window is exactly the tail of the string, and no longer than a fresh one. -/
structure Buffers.WindowIsTail (buffers : Buffers σ p) (destinationBufferLength : Nat) : Prop where
  tail : buffers.destinationLength + buffers.remainingDestinationBufferLength =
    buffers.destinationValue.length
  window_le : buffers.remainingDestinationBufferLength ≤ destinationBufferLength

/-- The answer of the codec in the turn that starts with `buffers`. -/
def Buffers.reply (buffers : Buffers σ p) (native : Native σ Byte Byte ε) :
    Reply σ Byte ε buffers.remainingSource.length buffers.remainingDestinationBufferLength :=
  native buffers.state buffers.remainingSource buffers.remainingDestinationBufferLength

/-- The variables after the codec call and the addition to `destination_length`. -/
def Buffers.counted (buffers : Buffers σ p) (native : Native σ Byte Byte ε) : Buffers σ p :=
  (buffers.call native).count buffers.remainingDestinationBufferLength

@[simp]
theorem Buffers.counted_state (buffers : Buffers σ p) (native : Native σ Byte Byte ε) :
    (buffers.counted native).state = (buffers.reply native).state := rfl

@[simp]
theorem Buffers.counted_remainingSource (buffers : Buffers σ p) (native : Native σ Byte Byte ε) :
    (buffers.counted native).remainingSource =
      buffers.remainingSource.drop (buffers.reply native).consumed := rfl

@[simp]
theorem Buffers.counted_remaining (buffers : Buffers σ p) (native : Native σ Byte Byte ε) :
    (buffers.counted native).remainingDestinationBufferLength =
      buffers.remainingDestinationBufferLength - (buffers.reply native).written.length := rfl

@[simp]
theorem Buffers.counted_destinationValue (buffers : Buffers σ p)
    (native : Native σ Byte Byte ε) :
    (buffers.counted native).destinationValue =
      buffers.destinationValue.write buffers.destinationLength
        (buffers.reply native).written := rfl

section Turn

variable {buffers : Buffers σ p} {native : Native σ Byte Byte ε} {destinationBufferLength : Nat}

/-- The codec writes inside the string. -/
theorem Buffers.WindowIsTail.write_inside
    (window : buffers.WindowIsTail destinationBufferLength) :
    buffers.destinationLength + (buffers.reply native).written.length ≤
      buffers.destinationValue.length := by
  have bound := (buffers.reply native).written_le
  have tail := window.tail
  omega

/-- The differences of the remaining counter add up to the bytes written. -/
theorem Buffers.WindowIsTail.counted_destinationLength
    (window : buffers.WindowIsTail destinationBufferLength) :
    (buffers.counted native).destinationLength =
      buffers.destinationLength + (buffers.reply native).written.length := by
  have bound := (buffers.reply native).written_le
  have inside : buffers.destinationLength + (buffers.reply native).written.length ≤
      buffers.destinationValue.length := window.write_inside
  have tail := window.tail
  have size := buffers.destinationValue.length_lt_sizeModulus
  change p.sizeAdd buffers.destinationLength
      (p.sizeSub buffers.remainingDestinationBufferLength
        (buffers.remainingDestinationBufferLength - (buffers.reply native).written.length)) = _
  rw [p.sizeSub_eq (Nat.sub_le _ _) (by omega), Nat.sub_sub_self bound]
  exact p.sizeAdd_eq (by omega)

theorem Buffers.WindowIsTail.counted
    (window : buffers.WindowIsTail destinationBufferLength) :
    (buffers.counted native).WindowIsTail destinationBufferLength := by
  have bound := (buffers.reply native).written_le
  have tail := window.tail
  have below := window.window_le
  constructor
  · rw [window.counted_destinationLength, counted_remaining, counted_destinationValue,
      RString.write_length _ _ _ window.write_inside]
    omega
  · rw [counted_remaining]
    omega

/-- A call appends what the codec wrote to the output, and nothing else. -/
theorem Buffers.WindowIsTail.counted_output
    (window : buffers.WindowIsTail destinationBufferLength) :
    (buffers.counted native).output = buffers.output ++ (buffers.reply native).written := by
  rw [Buffers.output, window.counted_destinationLength, counted_destinationValue]
  exact RString.write_take _ window.write_inside

/-! ## Growing the string -/

/-- What a successful `increase_destination_buffer` does. -/
structure Buffers.Grown (before after : Buffers σ p) (destinationBufferLength : Nat) : Prop where
  state : after.state = before.state
  remainingSource : after.remainingSource = before.remainingSource
  destinationLength : after.destinationLength = before.destinationLength
  output : after.output = before.output
  fresh : after.remainingDestinationBufferLength = destinationBufferLength
  length : after.destinationValue.length = before.destinationLength + destinationBufferLength

/-- The fresh window is the tail of the longer string. -/
theorem Buffers.Grown.window {before after : Buffers σ p}
    (grown : before.Grown after destinationBufferLength) :
    after.WindowIsTail destinationBufferLength := by
  constructor
  · rw [grown.length, grown.fresh, grown.destinationLength]
  · exact Nat.le_of_eq grown.fresh

/-- The ways in which `increase_destination_buffer` can be left. -/
inductive Increase (before : Buffers σ p) (destinationBufferLength : Nat) :
    Exit (Buffers σ p) → Prop where
  | stalled
      (untouched : before.remainingDestinationBufferLength = destinationBufferLength) :
      Increase before destinationBufferLength (.error .notEnoughDestinationBuffer)
  | grown {after : Buffers σ p}
      (touched : before.remainingDestinationBufferLength ≠ destinationBufferLength)
      (grown : before.Grown after destinationBufferLength) :
      Increase before destinationBufferLength (.ok after)
  | noMemory : Increase before destinationBufferLength (.error .allocateFailed)
  | raised : Increase before destinationBufferLength (.raised .noMemoryError)

theorem increaseDestinationBuffer_cases {before : Buffers σ p} {env after : Environment}
    {exit : Exit (Buffers σ p)} (window : before.WindowIsTail destinationBufferLength)
    (small : destinationBufferLength ≤ p.maxStringLength)
    (left : increaseDestinationBuffer destinationBufferLength before env = (exit, after)) :
    Increase before destinationBufferLength exit := by
  have inside := before.destinationValue.length_le
  have size := p.sizeModulus_eq
  have tail := window.tail
  rw [RString.length] at tail
  have sum : p.sizeAdd before.destinationLength destinationBufferLength =
      before.destinationLength + destinationBufferLength := p.sizeAdd_eq (by omega)
  unfold increaseDestinationBuffer at left
  split at left
  · next untouched =>
      cases left
      exact .stalled untouched
  · next touched =>
      unfold lzwsExtResizeStringBuffer at left
      rw [sum] at left
      by_cases raises : env.nextArrayFailure.1
      · simp only [raises, ↓reduceIte] at left
        cases left
        exact .raised
      · simp only [raises, Bool.false_eq_true, ↓reduceIte] at left
        by_cases fits : env.nextArrayFailure.2.nextStringFailure.1 = false ∧
            before.destinationLength + destinationBufferLength ≤ p.maxStringLength
        · simp only [fits, and_self, ↓reduceDIte] at left
          cases left
          have below : before.destinationLength ≤ before.destinationValue.length := by
            rw [RString.length]
            omega
          refine .grown touched ⟨rfl, rfl, rfl, ?_, rfl, ?_⟩
          · exact RString.resize_take _ _ _ fits.2 (Nat.le_add_right _ _) below
          · exact RString.resize_length _ _ _ fits.2
        · simp only [fits, ↓reduceDIte] at left
          cases left
          exact .noMemory

/-! ## One turn -/

/-- Everything that can follow from a turn. -/
inductive TurnResult (buffers : Buffers σ p) (native : Native σ Byte Byte ε)
    (resultOf : ε → ExtError) (destinationBufferLength : Nat) :
    Turn (Buffers σ p × Environment) (Exit (Buffers σ p) × Environment) → Prop where
  | interrupted {env : Environment} :
      TurnResult buffers native resultOf destinationBufferLength
        (.leave (.raised .interrupt, env))
  | failed {env : Environment} {code : ε}
      (status : (buffers.reply native).status = .error code) :
      TurnResult buffers native resultOf destinationBufferLength
        (.leave (.error (resultOf code), env))
  | done {env : Environment} (status : (buffers.reply native).status = .ok) :
      TurnResult buffers native resultOf destinationBufferLength
        (.leave (.ok (buffers.counted native), env))
  | stalled {env : Environment} (status : (buffers.reply native).status = .needsMore)
      (fresh : buffers.remainingDestinationBufferLength = destinationBufferLength)
      (nothing : (buffers.reply native).written = []) :
      TurnResult buffers native resultOf destinationBufferLength
        (.leave (.error .notEnoughDestinationBuffer, env))
  | again {next : Buffers σ p} {env : Environment}
      (status : (buffers.reply native).status = .needsMore)
      (touched : (buffers.counted native).remainingDestinationBufferLength ≠
        destinationBufferLength)
      (grown : (buffers.counted native).Grown next destinationBufferLength) :
      TurnResult buffers native resultOf destinationBufferLength (.again (next, env))
  | noMemory {env : Environment} :
      TurnResult buffers native resultOf destinationBufferLength
        (.leave (.error .allocateFailed, env))
  | raised {env : Environment} :
      TurnResult buffers native resultOf destinationBufferLength
        (.leave (.raised .noMemoryError, env))

/-- A window that is still a full one has not been written into. -/
theorem Buffers.WindowIsTail.untouched (window : buffers.WindowIsTail destinationBufferLength)
    (same : (buffers.counted native).remainingDestinationBufferLength =
      destinationBufferLength) :
    buffers.remainingDestinationBufferLength = destinationBufferLength ∧
      (buffers.reply native).written = [] := by
  have bound := (buffers.reply native).written_le
  have below := window.window_le
  rw [counted_remaining] at same
  have empty : (buffers.reply native).written.length = 0 := by omega
  exact ⟨by omega, List.length_eq_zero_iff.mp empty⟩

theorem bufferedTurn_result (native : Native σ Byte Byte ε) (resultOf : ε → ExtError) (gvl : Bool)
    (env : Environment) (window : buffers.WindowIsTail destinationBufferLength)
    (small : destinationBufferLength ≤ p.maxStringLength) :
    TurnResult buffers native resultOf destinationBufferLength
      (bufferedTurn gvl native resultOf destinationBufferLength (buffers, env)) := by
  rw [bufferedTurn]
  rcases gvlWrap p gvl env with ⟨delivery, env⟩
  cases delivery with
  | before => exact .interrupted
  | after => exact .interrupted
  | nothing =>
      dsimp only
      cases status : (native buffers.state buffers.remainingSource
          buffers.remainingDestinationBufferLength).status with
      | error code => exact .failed status
      | ok => exact .done status
      | needsMore =>
          dsimp only
          rcases left : increaseDestinationBuffer destinationBufferLength
            ((buffers.call native).count buffers.remainingDestinationBufferLength) env
            with ⟨exit, after⟩
          cases increaseDestinationBuffer_cases window.counted small left with
          | stalled untouched =>
              obtain ⟨fresh, nothing⟩ := window.untouched untouched
              exact .stalled status fresh nothing
          | grown touched grown => exact .again status touched grown
          | noMemory => exact .noMemory
          | raised => exact .raised

/-- A turn that is followed by another has touched its window and grown the string. -/
theorem bufferedTurn_again {resultOf : ε → ExtError} {gvl : Bool} {next : Buffers σ p}
    {env after : Environment} (window : buffers.WindowIsTail destinationBufferLength)
    (small : destinationBufferLength ≤ p.maxStringLength)
    (turned : bufferedTurn gvl native resultOf destinationBufferLength (buffers, env) =
      .again (next, after)) :
    (buffers.reply native).status = .needsMore ∧
      (buffers.counted native).remainingDestinationBufferLength ≠ destinationBufferLength ∧
      (buffers.counted native).Grown next destinationBufferLength := by
  have result := bufferedTurn_result native resultOf gvl env window small
  rw [turned] at result
  cases result with
  | again status touched grown => exact ⟨status, touched, grown⟩

end Turn

/-! ## Whole loops -/

/--
The loop invariant: since `start` the codec calls were a session that was shown
all of the source, and its output was appended to what the string held before.
-/
structure LoopInvariant (native : Native σ Byte Byte ε) (destinationBufferLength : Nat)
    (start buffers : Buffers σ p) (emitted : List Byte) : Prop where
  session : Session native .whole start.state start.remainingSource emitted buffers.state
    buffers.remainingSource
  output : buffers.output = start.output ++ emitted
  window : buffers.WindowIsTail destinationBufferLength

/-- What is known where a loop is left. -/
inductive LoopResult (native : Native σ Byte Byte ε) (resultOf : ε → ExtError)
    (destinationBufferLength : Nat) (start : Buffers σ p) : Exit (Buffers σ p) → Prop where
  | ok {buffers : Buffers σ p} {emitted : List Byte}
      (ends : Ends native .whole start.state start.remainingSource emitted
        (.finished buffers.state buffers.remainingSource))
      (output : buffers.output = start.output ++ emitted)
      (window : buffers.WindowIsTail destinationBufferLength) :
      LoopResult native resultOf destinationBufferLength start (.ok buffers)
  | failed {emitted : List Byte} {code : ε}
      (ends : Ends native .whole start.state start.remainingSource emitted (.failed code)) :
      LoopResult native resultOf destinationBufferLength start (.error (resultOf code))
  | stalled {emitted : List Byte} {state : σ} {rest : List Byte}
      (session : Session native .whole start.state start.remainingSource emitted state rest)
      (status : (native state rest destinationBufferLength).status = .needsMore)
      (nothing : (native state rest destinationBufferLength).written = []) :
      LoopResult native resultOf destinationBufferLength start
        (.error .notEnoughDestinationBuffer)
  | noMemory : LoopResult native resultOf destinationBufferLength start (.error .allocateFailed)
  | raised {exception : Raised} (outside : exception.FromEnvironment) :
      LoopResult native resultOf destinationBufferLength start (.raised exception)

section Loop

variable {native : Native σ Byte Byte ε} {resultOf : ε → ExtError} {gvl : Bool}
  {destinationBufferLength : Nat} {start : Buffers σ p}

/-- One more turn extends the session by one call and the output by what it wrote. -/
theorem LoopInvariant.again {buffers next : Buffers σ p} {env after : Environment}
    {emitted : List Byte} (small : destinationBufferLength ≤ p.maxStringLength)
    (invariant : LoopInvariant native destinationBufferLength start buffers emitted)
    (turned : bufferedTurn gvl native resultOf destinationBufferLength (buffers, env) =
      .again (next, after)) :
    LoopInvariant native destinationBufferLength start next
      (emitted ++ (buffers.reply native).written) := by
  obtain ⟨status, _, grown⟩ := bufferedTurn_again invariant.window small turned
  refine ⟨?_, ?_, grown.window⟩
  · rw [grown.state, grown.remainingSource]
    exact invariant.session.call_all _ (.inl status)
  · rw [grown.output, invariant.window.counted_output, invariant.output, List.append_assoc]

/-- Leaving a loop under the invariant. -/
theorem LoopInvariant.leave {buffers : Buffers σ p} {env after : Environment}
    {emitted : List Byte} {exit : Exit (Buffers σ p)}
    (small : destinationBufferLength ≤ p.maxStringLength)
    (invariant : LoopInvariant native destinationBufferLength start buffers emitted)
    (turned : bufferedTurn gvl native resultOf destinationBufferLength (buffers, env) =
      .leave (exit, after)) :
    LoopResult native resultOf destinationBufferLength start exit := by
  have result := bufferedTurn_result native resultOf gvl env invariant.window small
  rw [turned] at result
  cases result with
  | interrupted => exact .raised (.inl rfl)
  | failed status =>
      exact .failed (.failed_all invariant.session status)
  | done status =>
      refine .ok (.finished invariant.session status) ?_ invariant.window.counted
      rw [invariant.window.counted_output, invariant.output, List.append_assoc]
      rfl
  | stalled status fresh nothing =>
      rw [Buffers.reply, fresh] at status nothing
      exact .stalled invariant.session status nothing
  | noMemory => exact .noMemory
  | raised => exact .raised (.inr rfl)

/-- The run lemma of the loops over a codec. -/
theorem bufferedLoop_result {env after : Environment} {exit : Exit (Buffers σ p)}
    (window : start.WindowIsTail destinationBufferLength)
    (small : destinationBufferLength ≤ p.maxStringLength)
    (leaves : Leaves (bufferedTurn gvl native resultOf destinationBufferLength)
      (start, env) (exit, after)) :
    LoopResult native resultOf destinationBufferLength start exit := by
  refine leaves.invariant
    (fun state => ∃ emitted, LoopInvariant native destinationBufferLength start state.1 emitted)
    (fun result => LoopResult native resultOf destinationBufferLength start result.1)
    ?_ ?_ ⟨[], .start, (List.append_nil _).symm, window⟩
  · rintro ⟨buffers, env⟩ ⟨next, after⟩ ⟨emitted, invariant⟩ turned
    exact ⟨_, invariant.again small turned⟩
  · rintro ⟨buffers, env⟩ ⟨exit, after⟩ ⟨emitted, invariant⟩ turned
    exact invariant.leave small turned

/-- Where a turn is followed by another, the string has become longer. -/
theorem bufferedTurn_grows {buffers next : Buffers σ p} {env after : Environment}
    (window : buffers.WindowIsTail destinationBufferLength)
    (small : destinationBufferLength ≤ p.maxStringLength)
    (turned : bufferedTurn gvl native resultOf destinationBufferLength (buffers, env) =
      .again (next, after)) :
    buffers.destinationValue.length < next.destinationValue.length := by
  obtain ⟨_, touched, grown⟩ := bufferedTurn_again window small turned
  have counted : (buffers.counted native).WindowIsTail destinationBufferLength :=
    window.counted
  have tail := counted.tail
  have below := counted.window_le
  have same : (buffers.counted native).destinationValue.length =
      buffers.destinationValue.length := RString.write_length _ _ _ window.write_inside
  rw [grown.length]
  omega

/-- The loops end: a Ruby string cannot grow for ever. -/
theorem bufferedLoop_leaves (native : Native σ Byte Byte ε) (resultOf : ε → ExtError) (gvl : Bool)
    (env : Environment) (window : start.WindowIsTail destinationBufferLength)
    (small : destinationBufferLength ≤ p.maxStringLength) :
    ∃ result, Leaves (bufferedTurn gvl native resultOf destinationBufferLength)
      (start, env) result := by
  refine Leaves.of_measure
    (fun state => ∃ emitted, LoopInvariant native destinationBufferLength start state.1 emitted)
    (fun state => p.maxStringLength - state.1.destinationValue.length) ?_
    ⟨[], .start, (List.append_nil _).symm, window⟩
  rintro ⟨buffers, env⟩ ⟨next, after⟩ ⟨emitted, invariant⟩ turned
  refine ⟨⟨_, invariant.again small turned⟩, ?_⟩
  have longer : buffers.destinationValue.length < next.destinationValue.length :=
    bufferedTurn_grows invariant.window small turned
  have bound : next.destinationValue.length ≤ p.maxStringLength := next.destinationValue.length_le
  change p.maxStringLength - next.destinationValue.length <
    p.maxStringLength - buffers.destinationValue.length
  omega

end Loop

end RubyLzws.Ext
