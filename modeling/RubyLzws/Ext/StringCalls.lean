import RubyLzws.Ext.StringResult

/-!
# The turns and the codec calls of `compress` and `decompress`

A run is looked at turn by turn: with which variables each turn of the loops begins,
which function of the codec it calls, and what that call writes.  `compress_turnsOf` and
`decompress_turnsOf` say that these are the turns that `compress` and `decompress` make, so
what holds of every turn holds of every codec call.
-/

namespace RubyLzws.Ext

open Library.Transducer Library.Loop

variable {σ ε : Type} {p : Platform}

/-- A turn of a loop: the function of the codec, and what the turn begins with. -/
structure LoopTurn (σ ε : Type) (p : Platform) where
  native : Native σ Byte Byte ε
  buffers : Buffers σ p
  environment : Environment

namespace LoopTurn

/-- The answer of the codec in this turn. -/
def reply (turn : LoopTurn σ ε p) :
    Reply σ Byte ε turn.buffers.remainingSource.length
      turn.buffers.remainingDestinationBufferLength :=
  turn.buffers.reply turn.native

/-- The variables after the codec call and the addition to `destination_length`. -/
def counted (turn : LoopTurn σ ε p) : Buffers σ p := turn.buffers.counted turn.native

/-- The codec is called, unless an interrupt leaves before that. -/
def calls (gvl : Bool) (turn : LoopTurn σ ε p) : Bool :=
  (gvlWrap p gvl turn.environment).1 != .before

end LoopTurn

/-- The turns of a loop, in order. -/
def loopTurns (gvl : Bool) (native : Native σ Byte Byte ε) (resultOf : ε → ExtError)
    (destinationBufferLength fuel : Nat) (start : Buffers σ p × Environment) :
    List (LoopTurn σ ε p) :=
  (visited (bufferedTurn gvl native resultOf destinationBufferLength) fuel start).map fun state =>
    ⟨native, state.1, state.2⟩

/-- The turns of `compress`: those of the second loop follow where the first ends with 0. -/
def compressTurns (codec : CompressorCodec σ) (fuel : Nat) (state : σ) (source : List Byte)
    (destinationValue : RString p) (destinationBufferLength : Nat) (gvl : Bool)
    (env : Environment) : List (LoopTurn σ CompressorError p) :=
  loopTurns gvl codec.compress (fun _ => .unexpected) destinationBufferLength fuel
      (.start state source destinationValue destinationBufferLength, env) ++
    match run (bufferedCompress gvl codec.compress destinationBufferLength) fuel
        (.start state source destinationValue destinationBufferLength, env) with
    | some (.ok buffers, env) =>
        loopTurns gvl codec.finishNative (fun _ => .unexpected) destinationBufferLength fuel
          (buffers, env)
    | _ => []

/-- The turns of `decompress`. -/
def decompressTurns (codec : DecompressorCodec σ) (fuel : Nat) (state : σ) (source : List Byte)
    (destinationValue : RString p) (destinationBufferLength : Nat) (gvl : Bool)
    (env : Environment) : List (LoopTurn σ DecompressorError p) :=
  loopTurns gvl codec.decompress decompressResult destinationBufferLength fuel
    (.start state source destinationValue destinationBufferLength, env)

/-- The turns in which the codec is called. -/
def codecCalls (gvl : Bool) (turns : List (LoopTurn σ ε p)) : List (LoopTurn σ ε p) :=
  turns.filter (LoopTurn.calls gvl)

/-- How many bytes the codec wrote in all of these turns. -/
def bytesWritten (turns : List (LoopTurn σ ε p)) : Nat :=
  (turns.map fun turn => turn.reply.written.length).sum

theorem codecCalls_append (gvl : Bool) (first second : List (LoopTurn σ ε p)) :
    codecCalls gvl (first ++ second) = codecCalls gvl first ++ codecCalls gvl second :=
  List.filter_append _ _

/-! ## One loop -/

section Loop

variable {gvl : Bool} {native : Native σ Byte Byte ε} {resultOf : ε → ExtError}
  {destinationBufferLength fuel : Nat} {start : Buffers σ p} {env : Environment}

/-- What every turn preserves holds where a turn begins, and every turn calls `native`. -/
theorem loopTurns_invariant (inv : Buffers σ p → Prop)
    (again : ∀ buffers env next after, inv buffers →
      bufferedTurn gvl native resultOf destinationBufferLength (buffers, env) =
        .again (next, after) → inv next)
    (initial : inv start) :
    ∀ turn ∈ loopTurns gvl native resultOf destinationBufferLength fuel (start, env),
      turn.native = native ∧ inv turn.buffers := by
  intro turn member
  obtain ⟨⟨buffers, environment⟩, reached, rfl⟩ := List.mem_map.mp member
  refine ⟨rfl, ?_⟩
  exact visited_invariant (fun state : Buffers σ p × Environment => inv state.1)
    (fun state next kept turned => again _ _ _ _ kept turned) initial _ reached

/-- The window is the tail of the string in every turn, and nothing written before is lost. -/
theorem loopTurns_window (window : start.WindowIsTail destinationBufferLength)
    (small : destinationBufferLength ≤ p.maxStringLength) :
    ∀ turn ∈ loopTurns gvl native resultOf destinationBufferLength fuel (start, env),
      turn.native = native ∧ turn.buffers.WindowIsTail destinationBufferLength ∧
        start.output <+: turn.buffers.output := by
  refine loopTurns_invariant
    (fun buffers => buffers.WindowIsTail destinationBufferLength ∧ start.output <+: buffers.output)
    ?_ ⟨window, List.prefix_refl _⟩
  rintro buffers env next after ⟨kept, grows⟩ turned
  obtain ⟨_, _, grown⟩ := bufferedTurn_again kept small turned
  refine ⟨grown.window, ?_⟩
  rw [grown.output, kept.counted_output]
  exact grows.trans (List.prefix_append _ _)

/-- A loop that has an end leaves in its last turn. -/
theorem loopTurns_of_run {exit : Exit (Buffers σ p)} {after : Environment}
    (executed : run (bufferedTurn gvl native resultOf destinationBufferLength) fuel (start, env) =
      some (exit, after)) :
    ∃ earlier last lastEnv, loopTurns gvl native resultOf destinationBufferLength fuel
        (start, env) = earlier ++ [⟨native, last, lastEnv⟩] ∧
      bufferedTurn gvl native resultOf destinationBufferLength (last, lastEnv) =
        .leave (exit, after) := by
  obtain ⟨earlier, ⟨last, lastEnv⟩, whole, leaves⟩ := visited_of_run executed
  refine ⟨earlier.map fun state => ⟨native, state.1, state.2⟩, last, lastEnv, ?_, leaves⟩
  rw [loopTurns, whole, List.map_append, List.map_singleton]

/-- A turn that does not leave by an exception has called the codec. -/
theorem calls_of_turn {buffers : Buffers σ p}
    (onward : ∀ after, bufferedTurn gvl native resultOf destinationBufferLength (buffers, env) ≠
      .leave (.raised .interrupt, after)) :
    LoopTurn.calls gvl (⟨native, buffers, env⟩ : LoopTurn σ ε p) = true := by
  unfold LoopTurn.calls
  rw [bufferedTurn] at onward
  rcases wrapped : gvlWrap p gvl env with ⟨delivery, after⟩
  rw [wrapped] at onward
  cases delivery with
  | before => exact absurd rfl (onward after)
  | after => rfl
  | nothing => rfl

end Loop

/-! ## Both loops of `compress` -/

section Compress

variable {codec : CompressorCodec σ} {fuel : Nat} {state : σ} {source : List Byte}
  {destinationValue : RString p} {destinationBufferLength : Nat} {gvl : Bool} {env : Environment}

/-- Where the first loop ends with 0, the turns of the second follow. -/
theorem compressTurns_fed {fed : Buffers σ p} {fedEnv : Environment}
    (feeding : run (bufferedCompress gvl codec.compress destinationBufferLength) fuel
      (.start state source destinationValue destinationBufferLength, env) =
        some (.ok fed, fedEnv)) :
    compressTurns codec fuel state source destinationValue destinationBufferLength gvl env =
      loopTurns gvl codec.compress (fun _ => .unexpected) destinationBufferLength fuel
          (.start state source destinationValue destinationBufferLength, env) ++
        loopTurns gvl codec.finishNative (fun _ => .unexpected) destinationBufferLength fuel
          (fed, fedEnv) := by
  unfold compressTurns
  rw [feeding]

/-- Elsewhere there are the turns of the first loop only. -/
theorem compressTurns_unfed
    (unfed : ∀ fed fedEnv, run (bufferedCompress gvl codec.compress destinationBufferLength) fuel
      (.start state source destinationValue destinationBufferLength, env) ≠
        some (.ok fed, fedEnv)) :
    compressTurns codec fuel state source destinationValue destinationBufferLength gvl env =
      loopTurns gvl codec.compress (fun _ => .unexpected) destinationBufferLength fuel
        (.start state source destinationValue destinationBufferLength, env) := by
  unfold compressTurns
  split
  · next fed fedEnv feeding => exact absurd feeding (unfed fed fedEnv)
  · exact List.append_nil _

/-- A first loop that is left without a success is not left with 0. -/
theorem unfed_of_abnormal {exit : Exit (Buffers σ p)} {after : Environment}
    (feeding : run (bufferedCompress gvl codec.compress destinationBufferLength) fuel
      (.start state source destinationValue destinationBufferLength, env) = some (exit, after))
    (abnormal : exit.Abnormal) :
    ∀ fed fedEnv, run (bufferedCompress gvl codec.compress destinationBufferLength) fuel
      (.start state source destinationValue destinationBufferLength, env) ≠
        some (.ok fed, fedEnv) := by
  intro fed fedEnv other
  rw [feeding] at other
  cases other
  exact abnormal fed rfl

end Compress

/-! ## The turns of a run -/

/-- A loop makes these turns from `start` on, and is then left with `result`. -/
def LoopMakes (gvl : Bool) (native : Native σ Byte Byte ε) (resultOf : ε → ExtError)
    (destinationBufferLength : Nat) (start : Buffers σ p × Environment)
    (turns : List (LoopTurn σ ε p)) (result : Exit (Buffers σ p) × Environment) : Prop :=
  ∃ states, Makes (bufferedTurn gvl native resultOf destinationBufferLength) start states result ∧
    turns = states.map fun state => ⟨native, state.1, state.2⟩

/-- `compress` makes these turns from `start` on, and is then left with a result. -/
inductive CompressMakes (codec : CompressorCodec σ) (destinationBufferLength : Nat) (gvl : Bool)
    (start : Buffers σ p × Environment) :
    List (LoopTurn σ CompressorError p) → Exit (Buffers σ p) × Environment → Prop where
  /-- The first loop is left without a success. -/
  | feeding {turns : List (LoopTurn σ CompressorError p)} {exit : Exit (Buffers σ p)}
      {after : Environment}
      (feeds : LoopMakes gvl codec.compress (fun _ => .unexpected) destinationBufferLength start
        turns (exit, after)) (abnormal : exit.Abnormal) :
      CompressMakes codec destinationBufferLength gvl start turns (exit, after)
  /-- The second loop, which goes on with the variables of the first, is left without one. -/
  | finishing {first second : List (LoopTurn σ CompressorError p)} {fed : Buffers σ p}
      {fedEnv after : Environment} {exit : Exit (Buffers σ p)}
      (feeds : LoopMakes gvl codec.compress (fun _ => .unexpected) destinationBufferLength start
        first (.ok fed, fedEnv))
      (finishes : LoopMakes gvl codec.finishNative (fun _ => .unexpected) destinationBufferLength
        (fed, fedEnv) second (exit, after)) (abnormal : exit.Abnormal) :
      CompressMakes codec destinationBufferLength gvl start (first ++ second) (exit, after)
  /-- Both loops are left with 0; the last resize gives the result. -/
  | finished {first second : List (LoopTurn σ CompressorError p)} {fed flushed : Buffers σ p}
      {fedEnv flushedEnv : Environment}
      (feeds : LoopMakes gvl codec.compress (fun _ => .unexpected) destinationBufferLength start
        first (.ok fed, fedEnv))
      (finishes : LoopMakes gvl codec.finishNative (fun _ => .unexpected) destinationBufferLength
        (fed, fedEnv) second (.ok flushed, flushedEnv)) :
      CompressMakes codec destinationBufferLength gvl start (first ++ second)
        (flushed.shrink flushedEnv)

/-- `decompress` makes these turns from `start` on, and is then left with a result. -/
inductive DecompressMakes (codec : DecompressorCodec σ) (destinationBufferLength : Nat)
    (gvl : Bool) (start : Buffers σ p × Environment) :
    List (LoopTurn σ DecompressorError p) → Exit (Buffers σ p) × Environment → Prop where
  | feeding {turns : List (LoopTurn σ DecompressorError p)} {exit : Exit (Buffers σ p)}
      {after : Environment}
      (feeds : LoopMakes gvl codec.decompress decompressResult destinationBufferLength start turns
        (exit, after)) (abnormal : exit.Abnormal) :
      DecompressMakes codec destinationBufferLength gvl start turns (exit, after)
  | finished {turns : List (LoopTurn σ DecompressorError p)} {buffers : Buffers σ p}
      {middle : Environment}
      (feeds : LoopMakes gvl codec.decompress decompressResult destinationBufferLength start turns
        (.ok buffers, middle)) :
      DecompressMakes codec destinationBufferLength gvl start turns (buffers.shrink middle)

/-- `turns` are the turns of the runs of a function, of which `Made` gives an account. -/
structure TurnsOf (function : Nat → Option (Exit (Buffers σ p) × Environment))
    (turns : Nat → List (LoopTurn σ ε p))
    (Made : List (LoopTurn σ ε p) → Exit (Buffers σ p) × Environment → Prop) : Prop where
  /-- A run that ends has made these turns. -/
  made : ∀ fuel result, function fuel = some result → Made (turns fuel) result
  /-- Turns that lead to a result are those of a run that ends with it. -/
  run : ∀ all result, Made all result → ∃ bound, ∀ fuel, bound ≤ fuel →
    function fuel = some result ∧ turns fuel = all
  /-- A run that is not followed to its end makes these turns first. -/
  front : ∀ fuel more, fuel ≤ more → turns fuel <+: turns more

/-- A result once found stays the same with more fuel. -/
theorem TurnsOf.stays {function : Nat → Option (Exit (Buffers σ p) × Environment)}
    {turns : Nat → List (LoopTurn σ ε p)}
    {Made : List (LoopTurn σ ε p) → Exit (Buffers σ p) × Environment → Prop}
    (turnsOf : TurnsOf function turns Made) {fuel : Nat}
    {result : Exit (Buffers σ p) × Environment} (returned : function fuel = some result) :
    ∃ bound, ∀ fuel, bound ≤ fuel → function fuel = some result := by
  obtain ⟨bound, found⟩ := turnsOf.run _ _ (turnsOf.made fuel result returned)
  exact ⟨bound, fun fuel enough => (found fuel enough).1⟩

section Loop

variable {gvl : Bool} {native : Native σ Byte Byte ε} {resultOf : ε → ExtError}
  {destinationBufferLength : Nat} {start : Buffers σ p × Environment}

theorem LoopMakes.of_run {fuel : Nat} {result : Exit (Buffers σ p) × Environment}
    (executed : run (bufferedTurn gvl native resultOf destinationBufferLength) fuel start =
      some result) :
    LoopMakes gvl native resultOf destinationBufferLength start
      (loopTurns gvl native resultOf destinationBufferLength fuel start) result :=
  ⟨_, .of_run executed, rfl⟩

theorem LoopMakes.run_eventually {turns : List (LoopTurn σ ε p)}
    {result : Exit (Buffers σ p) × Environment}
    (made : LoopMakes gvl native resultOf destinationBufferLength start turns result) :
    ∃ bound, ∀ fuel, bound ≤ fuel →
      run (bufferedTurn gvl native resultOf destinationBufferLength) fuel start = some result ∧
        loopTurns gvl native resultOf destinationBufferLength fuel start = turns := by
  obtain ⟨states, visits, rfl⟩ := made
  obtain ⟨bound, found⟩ := visits.run_eventually
  refine ⟨bound, fun fuel enough => ?_⟩
  obtain ⟨executed, same⟩ := found fuel enough
  exact ⟨executed, by rw [loopTurns, same]⟩

theorem loopTurns_front {fuel more : Nat} (enough : fuel ≤ more) :
    loopTurns gvl native resultOf destinationBufferLength fuel start <+:
      loopTurns gvl native resultOf destinationBufferLength more start :=
  (visited_front enough start).map _

theorem loopTurns_mono {fuel more : Nat} {result : Exit (Buffers σ p) × Environment}
    (executed : run (bufferedTurn gvl native resultOf destinationBufferLength) fuel start =
      some result) (enough : fuel ≤ more) :
    loopTurns gvl native resultOf destinationBufferLength more start =
      loopTurns gvl native resultOf destinationBufferLength fuel start := by
  rw [loopTurns, visited_mono executed enough]
  rfl

end Loop

section Functions

variable {destinationBufferLength fuel : Nat} {state : σ} {source : List Byte}
  {destinationValue : RString p} {gvl : Bool} {env after : Environment} {exit : Exit (Buffers σ p)}

theorem compress_of_feeding {codec : CompressorCodec σ}
    (feeding : run (bufferedCompress gvl codec.compress destinationBufferLength) fuel
      (.start state source destinationValue destinationBufferLength, env) = some (exit, after))
    (abnormal : exit.Abnormal) :
    compress codec fuel state source destinationValue destinationBufferLength gvl env =
      some (exit, after) := by
  unfold compress
  rw [feeding]
  cases exit with
  | ok buffers => exact absurd rfl (abnormal buffers)
  | error code => rfl
  | raised exception => rfl

/-- Where the first loop is left with 0, the second decides. -/
theorem compress_of_fed {codec : CompressorCodec σ} {fed : Buffers σ p} {fedEnv : Environment}
    (feeding : run (bufferedCompress gvl codec.compress destinationBufferLength) fuel
      (.start state source destinationValue destinationBufferLength, env) =
        some (.ok fed, fedEnv))
    (finishing : run (bufferedCompress gvl codec.finishNative destinationBufferLength) fuel
      (fed, fedEnv) = some (exit, after)) :
    (exit.Abnormal →
      compress codec fuel state source destinationValue destinationBufferLength gvl env =
        some (exit, after)) ∧
    ∀ flushed, exit = .ok flushed →
      compress codec fuel state source destinationValue destinationBufferLength gvl env =
        some (flushed.shrink after) := by
  unfold compress
  simp only [feeding, finishing]
  cases exit with
  | ok buffers =>
      refine ⟨fun abnormal => absurd rfl (abnormal buffers), ?_⟩
      rintro flushed ⟨⟩
      rfl
  | error code => exact ⟨fun _ => rfl, fun _ impossible => by cases impossible⟩
  | raised exception => exact ⟨fun _ => rfl, fun _ impossible => by cases impossible⟩

/-- The turns of the first loop come first. -/
theorem loopTurns_front_compressTurns (codec : CompressorCodec σ) :
    loopTurns gvl codec.compress (fun _ => .unexpected) destinationBufferLength fuel
        (.start state source destinationValue destinationBufferLength, env) <+:
      compressTurns codec fuel state source destinationValue destinationBufferLength gvl env :=
  List.prefix_append _ _

theorem compressTurns_front (codec : CompressorCodec σ) {more : Nat} (enough : fuel ≤ more) :
    compressTurns codec fuel state source destinationValue destinationBufferLength gvl env <+:
      compressTurns codec more state source destinationValue destinationBufferLength gvl env := by
  by_cases feeds : ∃ fed fedEnv, run (bufferedCompress gvl codec.compress destinationBufferLength)
      fuel (.start state source destinationValue destinationBufferLength, env) =
        some (.ok fed, fedEnv)
  · obtain ⟨fed, fedEnv, feeding⟩ := feeds
    rw [compressTurns_fed feeding, compressTurns_fed (run_mono feeding enough),
      loopTurns_mono feeding enough]
    exact (List.prefix_append_right_inj _).mpr (loopTurns_front enough)
  · simp only [not_exists] at feeds
    rw [compressTurns_unfed feeds]
    exact (loopTurns_front enough).trans (loopTurns_front_compressTurns codec)

/-- **The turns of `compress`** are those that its runs make. -/
theorem compress_turnsOf (codec : CompressorCodec σ) (state : σ) (source : List Byte)
    (destinationValue : RString p) (destinationBufferLength : Nat) (gvl : Bool)
    (env : Environment) :
    TurnsOf
      (fun fuel => compress codec fuel state source destinationValue destinationBufferLength gvl
        env)
      (fun fuel => compressTurns codec fuel state source destinationValue destinationBufferLength
        gvl env)
      (CompressMakes codec destinationBufferLength gvl
        (.start state source destinationValue destinationBufferLength, env)) := by
  constructor
  · rintro fuel ⟨exit, after⟩ returned
    rcases compress_runs returned with ⟨feeding, abnormal⟩ | ⟨fed, fedEnv, feeding, onward⟩
    · rw [compressTurns_unfed (unfed_of_abnormal feeding abnormal)]
      exact .feeding (.of_run feeding) abnormal
    · rw [compressTurns_fed feeding]
      rcases onward with ⟨finishing, abnormal⟩ | ⟨flushed, flushedEnv, finishing, shrunk⟩
      · exact .finishing (.of_run feeding) (.of_run finishing) abnormal
      · rw [← shrunk]
        exact .finished (.of_run feeding) (.of_run finishing)
  · intro all result made
    cases made with
    | feeding feeds abnormal =>
        obtain ⟨bound, found⟩ := feeds.run_eventually
        refine ⟨bound, fun fuel enough => ?_⟩
        obtain ⟨feeding, same⟩ := found fuel enough
        refine ⟨compress_of_feeding feeding abnormal, ?_⟩
        rw [compressTurns_unfed (unfed_of_abnormal feeding abnormal), same]
    | finishing feeds finishes abnormal =>
        obtain ⟨fedBound, fedFound⟩ := feeds.run_eventually
        obtain ⟨bound, found⟩ := finishes.run_eventually
        refine ⟨max fedBound bound, fun fuel enough => ?_⟩
        obtain ⟨feeding, fedSame⟩ := fedFound fuel (Nat.le_trans (Nat.le_max_left _ _) enough)
        obtain ⟨finishing, same⟩ := found fuel (Nat.le_trans (Nat.le_max_right _ _) enough)
        refine ⟨(compress_of_fed feeding finishing).1 abnormal, ?_⟩
        rw [compressTurns_fed feeding, fedSame, same]
    | finished feeds finishes =>
        obtain ⟨fedBound, fedFound⟩ := feeds.run_eventually
        obtain ⟨bound, found⟩ := finishes.run_eventually
        refine ⟨max fedBound bound, fun fuel enough => ?_⟩
        obtain ⟨feeding, fedSame⟩ := fedFound fuel (Nat.le_trans (Nat.le_max_left _ _) enough)
        obtain ⟨finishing, same⟩ := found fuel (Nat.le_trans (Nat.le_max_right _ _) enough)
        refine ⟨(compress_of_fed feeding finishing).2 _ rfl, ?_⟩
        rw [compressTurns_fed feeding, fedSame, same]
  · exact fun fuel more enough => compressTurns_front codec enough

/-- **The turns of `decompress`** are those that its runs make. -/
theorem decompress_turnsOf (codec : DecompressorCodec σ) (state : σ) (source : List Byte)
    (destinationValue : RString p) (destinationBufferLength : Nat) (gvl : Bool)
    (env : Environment) :
    TurnsOf
      (fun fuel => decompress codec fuel state source destinationValue destinationBufferLength gvl
        env)
      (fun fuel => decompressTurns codec fuel state source destinationValue
        destinationBufferLength gvl env)
      (DecompressMakes codec destinationBufferLength gvl
        (.start state source destinationValue destinationBufferLength, env)) := by
  constructor
  · rintro fuel ⟨exit, after⟩ returned
    rcases decompress_runs returned with ⟨executed, abnormal⟩ | ⟨buffers, middle, executed, shrunk⟩
    · exact .feeding (.of_run executed) abnormal
    · rw [← shrunk]
      exact .finished (.of_run executed)
  · intro all result made
    cases made with
    | @feeding exit after feeds abnormal =>
        obtain ⟨bound, found⟩ := feeds.run_eventually
        refine ⟨bound, fun fuel enough => ?_⟩
        obtain ⟨executed, same⟩ := found fuel enough
        refine ⟨?_, same⟩
        unfold decompress
        rw [executed]
        cases exit with
        | ok buffers => exact absurd rfl (abnormal buffers)
        | error code => rfl
        | raised exception => rfl
    | finished feeds =>
        obtain ⟨bound, found⟩ := feeds.run_eventually
        refine ⟨bound, fun fuel enough => ?_⟩
        obtain ⟨executed, same⟩ := found fuel enough
        refine ⟨?_, same⟩
        unfold decompress
        rw [executed]
  · exact fun fuel more enough => loopTurns_front enough

end Functions

end RubyLzws.Ext
