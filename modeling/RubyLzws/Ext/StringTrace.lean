import RubyLzws.Ext.StringResult

/-!
# Long jumps out of the string functions

Two calls take control away from the C frames below Ruby:
`rb_thread_call_without_gvl` when it finds a pending interrupt, and
`rb_ary_new_from_args` when memory for the array lacks.  A run is followed through
its loops with the answers that these two calls have given; with the lock kept it asks
the second one only.
-/

namespace RubyLzws.Ext

open Library.Transducer Library.Loop

variable {σ ε : Type} {p : Platform}

/-- What the surroundings answered on the way from `before` to `after`. -/
structure Answered (before after : Environment) (deliveries : List Delivery)
    (arrayFailures : List Bool) : Prop where
  deliveries : before.deliveries = deliveries ++ after.deliveries
  arrayFailures : before.arrayFailures = arrayFailures ++ after.arrayFailures

/-- No interrupt is delivered, and no argument array lacks memory. -/
structure Harmless (deliveries : List Delivery) (arrayFailures : List Bool) : Prop where
  deliveries : ∀ delivery ∈ deliveries, delivery = .nothing
  arrayFailures : ∀ raises ∈ arrayFailures, raises = false

/-- All answers between the two moments were harmless. -/
def JumpFree (before after : Environment) : Prop :=
  ∃ deliveries arrayFailures, Answered before after deliveries arrayFailures ∧
    Harmless deliveries arrayFailures

/-- Some answer between the two moments made a long jump. -/
def Jumped (before after : Environment) : Prop :=
  ∃ deliveries arrayFailures, Answered before after deliveries arrayFailures ∧
    ¬ Harmless deliveries arrayFailures

/-- A function is left by a long jump just if some answer on the way made one. -/
def Traced {α : Type} (before : Environment) : Exit α × Environment → Prop
  | (.ok _, after) => JumpFree before after
  | (.error _, after) => JumpFree before after
  | (.raised _, after) => Jumped before after

/-! ## Answers one after the other -/

section Answers

variable {first second third : Environment}

theorem Harmless.nil : Harmless [] [] := by
  constructor <;> simp

theorem Harmless.append_iff {deliveries deliveries' : List Delivery}
    {arrayFailures arrayFailures' : List Bool} :
    Harmless (deliveries ++ deliveries') (arrayFailures ++ arrayFailures') ↔
      Harmless deliveries arrayFailures ∧ Harmless deliveries' arrayFailures' := by
  constructor
  · rintro ⟨noInterrupt, noFailure⟩
    rw [List.forall_mem_append] at noInterrupt noFailure
    exact ⟨⟨noInterrupt.1, noFailure.1⟩, noInterrupt.2, noFailure.2⟩
  · rintro ⟨⟨left, left'⟩, right, right'⟩
    constructor
    · exact List.forall_mem_append.mpr ⟨left, right⟩
    · exact List.forall_mem_append.mpr ⟨left', right'⟩

theorem Answered.trans {deliveries deliveries' : List Delivery}
    {arrayFailures arrayFailures' : List Bool}
    (left : Answered first second deliveries arrayFailures)
    (right : Answered second third deliveries' arrayFailures') :
    Answered first third (deliveries ++ deliveries') (arrayFailures ++ arrayFailures') := by
  constructor
  · rw [left.deliveries, right.deliveries, List.append_assoc]
  · rw [left.arrayFailures, right.arrayFailures, List.append_assoc]

/-- Nothing is answered where neither list gets shorter. -/
theorem JumpFree.of_same (deliveries : first.deliveries = second.deliveries)
    (arrayFailures : first.arrayFailures = second.arrayFailures) : JumpFree first second :=
  ⟨[], [], ⟨deliveries, arrayFailures⟩, .nil⟩

theorem JumpFree.trans (left : JumpFree first second) (right : JumpFree second third) :
    JumpFree first third := by
  obtain ⟨_, _, answered, harmless⟩ := left
  obtain ⟨_, _, answered', harmless'⟩ := right
  exact ⟨_, _, answered.trans answered', Harmless.append_iff.mpr ⟨harmless, harmless'⟩⟩

theorem JumpFree.trans_jumped (left : JumpFree first second)
    (right : Jumped second third) : Jumped first third := by
  obtain ⟨_, _, answered, _⟩ := left
  obtain ⟨_, _, answered', harmful⟩ := right
  exact ⟨_, _, answered.trans answered', fun all => harmful (Harmless.append_iff.mp all).2⟩

theorem JumpFree.traced {α : Type} {result : Exit α × Environment}
    (left : JumpFree first second) (right : Traced second result) : Traced first result := by
  rcases result with ⟨exit, after⟩
  cases exit with
  | ok value => exact JumpFree.trans left right
  | error code => exact JumpFree.trans left right
  | raised exception => exact left.trans_jumped right

end Answers

/-! ## Single questions -/

/-- `rb_ary_new_from_args` returns just if its answer is harmless. -/
theorem nextArrayFailure_traced (env : Environment) :
    if env.nextArrayFailure.1 then Jumped env env.nextArrayFailure.2
    else JumpFree env env.nextArrayFailure.2 := by
  obtain ⟨deliveries, arrayFailures, _, _, _⟩ := env
  cases arrayFailures with
  | nil => exact .of_same rfl rfl
  | cons raises rest =>
      cases raises with
      | false => exact ⟨[], [false], ⟨rfl, rfl⟩, by simp, by simp⟩
      | true =>
          refine ⟨[], [true], ⟨rfl, rfl⟩, ?_⟩
          intro harmless
          cases harmless.arrayFailures true List.mem_cons_self

/-- The function under `LZWS_EXT_GVL_WRAP` returns just if the answer is harmless. -/
theorem gvlWrap_traced (p : Platform) (gvl : Bool) (env : Environment) :
    ((gvlWrap p gvl env).1 = .nothing ∧ JumpFree env (gvlWrap p gvl env).2) ∨
      ((gvlWrap p gvl env).1 ≠ .nothing ∧ Jumped env (gvlWrap p gvl env).2) := by
  unfold gvlWrap
  split
  · exact .inl ⟨rfl, .of_same rfl rfl⟩
  · obtain ⟨deliveries, _, _, _, _⟩ := env
    cases deliveries with
    | nil => exact .inl ⟨rfl, .of_same rfl rfl⟩
    | cons delivery rest =>
        by_cases quiet : delivery = .nothing
        · refine .inl ⟨quiet, [delivery], [], ⟨rfl, rfl⟩, ?_, by simp⟩
          simpa using quiet
        · refine .inr ⟨quiet, [delivery], [], ⟨rfl, rfl⟩, ?_⟩
          intro harmless
          exact quiet (harmless.deliveries delivery List.mem_cons_self)

theorem lzwsExtResizeStringBuffer_traced (buffer : RString p) (length : Nat)
    (env : Environment) : Traced env (lzwsExtResizeStringBuffer buffer length env) := by
  have array := nextArrayFailure_traced env
  unfold lzwsExtResizeStringBuffer
  by_cases raises : env.nextArrayFailure.1
  · simp only [raises, ↓reduceIte] at array ⊢
    exact array
  · simp only [raises, Bool.false_eq_true, ↓reduceIte] at array ⊢
    apply array.traced
    -- The string itself is resized under `rb_protect`: its failure is no long jump.
    split
    · exact .of_same rfl rfl
    · exact .of_same rfl rfl

theorem increaseDestinationBuffer_traced (destinationBufferLength : Nat)
    (buffers : Buffers σ p) (env : Environment) :
    Traced env (increaseDestinationBuffer destinationBufferLength buffers env) := by
  unfold increaseDestinationBuffer
  split
  · exact .of_same rfl rfl
  · have resized := lzwsExtResizeStringBuffer_traced buffers.destinationValue
      (p.sizeAdd buffers.destinationLength destinationBufferLength) env
    generalize lzwsExtResizeStringBuffer buffers.destinationValue
      (p.sizeAdd buffers.destinationLength destinationBufferLength) env = result at resized ⊢
    rcases result with ⟨exit, after⟩
    cases exit with
    | ok destinationValue => exact resized
    | error code => exact resized
    | raised exception => exact resized

theorem shrink_traced (buffers : Buffers σ p) (env : Environment) :
    Traced env (buffers.shrink env) := by
  have resized := lzwsExtResizeStringBuffer_traced buffers.destinationValue
    buffers.destinationLength env
  unfold Buffers.shrink
  generalize lzwsExtResizeStringBuffer buffers.destinationValue buffers.destinationLength env =
    result at resized ⊢
  rcases result with ⟨exit, after⟩
  cases exit with
  | ok destinationValue => exact resized
  | error code => exact resized
  | raised exception => exact resized

/-! ## The loops -/

/-- What one turn makes of the answers it gets. -/
def TurnTraced {α β : Type} (before : Environment) :
    Turn (α × Environment) (Exit β × Environment) → Prop
  | .again (_, after) => JumpFree before after
  | .leave result => Traced before result

theorem bufferedTurn_traced (gvl : Bool) (native : Native σ Byte Byte ε)
    (resultOf : ε → ExtError) (destinationBufferLength : Nat) (buffers : Buffers σ p)
    (env : Environment) :
    TurnTraced env (bufferedTurn gvl native resultOf destinationBufferLength (buffers, env)) := by
  have wrapped := gvlWrap_traced p gvl env
  rw [bufferedTurn]
  generalize gvlWrap p gvl env = answer at wrapped ⊢
  rcases answer with ⟨delivery, middle⟩
  cases delivery with
  | before =>
      rcases wrapped with ⟨impossible, _⟩ | ⟨_, jumped⟩
      · cases impossible
      · exact jumped
  | after =>
      rcases wrapped with ⟨impossible, _⟩ | ⟨_, jumped⟩
      · cases impossible
      · exact jumped
  | nothing =>
      rcases wrapped with ⟨_, free⟩ | ⟨impossible, _⟩
      · dsimp only
        split
        · exact free
        · exact free
        · have increased := free.traced (increaseDestinationBuffer_traced
            destinationBufferLength ((buffers.call native).count
              buffers.remainingDestinationBufferLength) middle)
          generalize increaseDestinationBuffer destinationBufferLength _ middle = result
            at increased ⊢
          rcases result with ⟨exit, after⟩
          cases exit with
          | ok next => exact increased
          | error code => exact increased
          | raised exception => exact increased
      · exact absurd rfl impossible

/-- A whole loop: the answers of its turns, one after the other. -/
theorem bufferedLoop_traced {gvl : Bool} {native : Native σ Byte Byte ε}
    {resultOf : ε → ExtError} {destinationBufferLength : Nat} {start : Buffers σ p}
    {env : Environment} {result : Exit (Buffers σ p) × Environment}
    (leaves : Leaves (bufferedTurn gvl native resultOf destinationBufferLength) (start, env)
      result) : Traced env result := by
  refine leaves.invariant (fun reached => JumpFree env reached.2) (Traced env) ?_ ?_
    (.of_same rfl rfl)
  · rintro ⟨buffers, before⟩ ⟨next, after⟩ free turned
    have turn := bufferedTurn_traced gvl native resultOf destinationBufferLength buffers before
    rw [turned] at turn
    exact free.trans turn
  · rintro ⟨buffers, before⟩ result free turned
    have turn := bufferedTurn_traced gvl native resultOf destinationBufferLength buffers before
    rw [turned] at turn
    exact free.traced turn

section Functions

variable {fuel destinationBufferLength : Nat} {source : List Byte} {destinationValue : RString p}
  {gvl : Bool} {env : Environment}

theorem compress_traced {codec : CompressorCodec σ} {state : σ}
    {result : Exit (Buffers σ p) × Environment}
    (returned : compress codec fuel state source destinationValue destinationBufferLength gvl
      env = some result) : Traced env result := by
  rcases result with ⟨exit, after⟩
  rcases compress_runs returned with ⟨feeding, _⟩ | ⟨fed, middle, feeding, onward⟩
  · exact bufferedLoop_traced (.of_run feeding)
  · have feeds : JumpFree env middle := bufferedLoop_traced (.of_run feeding)
    apply feeds.traced
    rcases onward with ⟨finishing, _⟩ | ⟨flushed, last, finishing, shrunk⟩
    · exact bufferedLoop_traced (.of_run finishing)
    · have finishes : JumpFree middle last := bufferedLoop_traced (.of_run finishing)
      rw [← shrunk]
      exact finishes.traced (shrink_traced flushed last)

theorem decompress_traced {codec : DecompressorCodec σ} {state : σ}
    {result : Exit (Buffers σ p) × Environment}
    (returned : decompress codec fuel state source destinationValue destinationBufferLength gvl
      env = some result) : Traced env result := by
  rcases result with ⟨exit, after⟩
  rcases decompress_runs returned with ⟨executed, _⟩ | ⟨buffers, middle, executed, shrunk⟩
  · exact bufferedLoop_traced (.of_run executed)
  · have looping : JumpFree env middle := bufferedLoop_traced (.of_run executed)
    rw [← shrunk]
    exact looping.traced (shrink_traced buffers middle)

end Functions

/-! ## With the lock kept -/

theorem lzwsExtResizeStringBuffer_deliveries (buffer : RString p) (length : Nat)
    (env : Environment) :
    (lzwsExtResizeStringBuffer buffer length env).2.deliveries = env.deliveries := by
  unfold lzwsExtResizeStringBuffer
  dsimp only
  split
  · rfl
  · split
    · rfl
    · rfl

theorem increaseDestinationBuffer_deliveries (destinationBufferLength : Nat)
    (buffers : Buffers σ p) (env : Environment) :
    (increaseDestinationBuffer destinationBufferLength buffers env).2.deliveries =
      env.deliveries := by
  unfold increaseDestinationBuffer
  split
  · rfl
  · have resized := lzwsExtResizeStringBuffer_deliveries buffers.destinationValue
      (p.sizeAdd buffers.destinationLength destinationBufferLength) env
    generalize lzwsExtResizeStringBuffer buffers.destinationValue
      (p.sizeAdd buffers.destinationLength destinationBufferLength) env = result at resized ⊢
    rcases result with ⟨exit, after⟩
    cases exit with
    | ok destinationValue => exact resized
    | error code => exact resized
    | raised exception => exact resized

theorem shrink_deliveries (buffers : Buffers σ p) (env : Environment) :
    (buffers.shrink env).2.deliveries = env.deliveries := by
  have resized := lzwsExtResizeStringBuffer_deliveries buffers.destinationValue
    buffers.destinationLength env
  unfold Buffers.shrink
  generalize lzwsExtResizeStringBuffer buffers.destinationValue buffers.destinationLength env =
    result at resized ⊢
  rcases result with ⟨exit, after⟩
  cases exit with
  | ok destinationValue => exact resized
  | error code => exact resized
  | raised exception => exact resized

/-- The surroundings after a turn. -/
def turnEnvironment {α β : Type} : Turn (α × Environment) (β × Environment) → Environment
  | .again (_, after) => after
  | .leave (_, after) => after

/-- A turn that keeps the lock is asked for no interrupt. -/
theorem bufferedTurn_deliveries {gvl : Bool} (keeps : KeepsLock p gvl)
    (native : Native σ Byte Byte ε) (resultOf : ε → ExtError) (destinationBufferLength : Nat)
    (buffers : Buffers σ p) (env : Environment) :
    (turnEnvironment (bufferedTurn gvl native resultOf destinationBufferLength
      (buffers, env))).deliveries = env.deliveries := by
  simp only [bufferedTurn, gvlWrap_of_locked keeps]
  split
  · rfl
  · rfl
  · have increased := increaseDestinationBuffer_deliveries destinationBufferLength
      ((buffers.call native).count buffers.remainingDestinationBufferLength) env
    generalize increaseDestinationBuffer destinationBufferLength _ env = result at increased ⊢
    rcases result with ⟨exit, after⟩
    cases exit with
    | ok next => exact increased
    | error code => exact increased
    | raised exception => exact increased

theorem bufferedLoop_deliveries {gvl : Bool} (keeps : KeepsLock p gvl)
    {native : Native σ Byte Byte ε} {resultOf : ε → ExtError} {destinationBufferLength : Nat}
    {start : Buffers σ p} {env after : Environment} {exit : Exit (Buffers σ p)}
    (leaves : Leaves (bufferedTurn gvl native resultOf destinationBufferLength) (start, env)
      (exit, after)) : after.deliveries = env.deliveries := by
  refine leaves.invariant (fun reached => reached.2.deliveries = env.deliveries)
    (fun result => result.2.deliveries = env.deliveries) ?_ ?_ rfl
  · intro reached next same turned
    have turn := bufferedTurn_deliveries keeps native resultOf destinationBufferLength reached.1
      reached.2
    rw [turned] at turn
    exact turn.trans same
  · intro reached result same turned
    have turn := bufferedTurn_deliveries keeps native resultOf destinationBufferLength reached.1
      reached.2
    rw [turned] at turn
    exact turn.trans same

section Locked

variable {fuel destinationBufferLength : Nat} {source : List Byte} {destinationValue : RString p}
  {gvl : Bool} {env after : Environment} {state : σ} {exit : Exit (Buffers σ p)}

theorem compress_deliveries {codec : CompressorCodec σ} (keeps : KeepsLock p gvl)
    (returned : compress codec fuel state source destinationValue destinationBufferLength gvl
      env = some (exit, after)) : after.deliveries = env.deliveries := by
  rcases compress_runs returned with ⟨feeding, _⟩ | ⟨fed, middle, feeding, onward⟩
  · exact bufferedLoop_deliveries keeps (.of_run feeding)
  · have fedDeliveries := bufferedLoop_deliveries keeps (.of_run feeding)
    rcases onward with ⟨finishing, _⟩ | ⟨flushed, last, finishing, shrunk⟩
    · exact (bufferedLoop_deliveries keeps (.of_run finishing)).trans fedDeliveries
    · have shrunkDeliveries := shrink_deliveries flushed last
      rw [shrunk] at shrunkDeliveries
      exact shrunkDeliveries.trans
        ((bufferedLoop_deliveries keeps (.of_run finishing)).trans fedDeliveries)

theorem decompress_deliveries {codec : DecompressorCodec σ} (keeps : KeepsLock p gvl)
    (returned : decompress codec fuel state source destinationValue destinationBufferLength gvl
      env = some (exit, after)) : after.deliveries = env.deliveries := by
  rcases decompress_runs returned with ⟨executed, _⟩ | ⟨buffers, middle, executed, shrunk⟩
  · exact bufferedLoop_deliveries keeps (.of_run executed)
  · have shrunkDeliveries := shrink_deliveries buffers middle
    rw [shrunk] at shrunkDeliveries
    exact shrunkDeliveries.trans (bufferedLoop_deliveries keeps (.of_run executed))

end Locked

/-! ## Around the loops -/

theorem obtainState_jumpFree {failure : ε} {initial : Except ε σ} {env after : Environment}
    {result : Except ε σ} (obtained : obtainState failure initial env = (result, after)) :
    JumpFree env after := by
  cases obtained
  exact .of_same rfl rfl

theorem lzwsExtCreateStringBuffer_jumpFree {length : Nat} {env after : Environment}
    {result : Option (RString p)}
    (created : lzwsExtCreateStringBuffer length env = (result, after)) :
    JumpFree env after := by
  unfold lzwsExtCreateStringBuffer at created
  dsimp only at created
  split at created
  · cases created
    exact .of_same rfl rfl
  · cases created
    exact .of_same rfl rfl

theorem obtainState_deliveries {failure : ε} {initial : Except ε σ} {env after : Environment}
    {result : Except ε σ} (obtained : obtainState failure initial env = (result, after)) :
    after.deliveries = env.deliveries := by
  cases obtained
  rfl

theorem lzwsExtCreateStringBuffer_deliveries {length : Nat} {env after : Environment}
    {result : Option (RString p)}
    (created : lzwsExtCreateStringBuffer length env = (result, after)) :
    after.deliveries = env.deliveries := by
  unfold lzwsExtCreateStringBuffer at created
  dsimp only at created
  split at created
  · cases created
    rfl
  · cases created
    rfl

/-- Surroundings in which nothing happens make no long jump. -/
theorem Traced.not_raised {α : Type} {env after : Environment} {exit : Exit α}
    (traced : Traced env (exit, after)) (quiet : env.Quiet) (exception : Raised) :
    exit ≠ .raised exception := by
  rintro rfl
  obtain ⟨deliveries, arrayFailures, answered, harmful⟩ := traced
  refine harmful ⟨?_, ?_⟩
  · intro delivery member
    apply quiet.deliveries delivery
    rw [answered.deliveries]
    exact List.mem_append_left _ member
  · intro raises member
    apply quiet.arrayFailures raises
    rw [answered.arrayFailures]
    exact List.mem_append_left _ member

end RubyLzws.Ext
