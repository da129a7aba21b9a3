import RubyLzws.Ext.StreamDriver

/-!
# The codec sessions behind a driven stream

However a source is cut into chunks and wherever results are read, feeding is a
codec session in which the results together with the pending bytes are what was
emitted.  Because every round that needs more destination reads at least one
byte, the driving ends wherever the sessions of the codec are bounded.
-/

namespace RubyLzws.Ext

open Library.Transducer Library.Loop

variable {σ ε : Type} {p : Platform}

/-- All sessions together emit no more than so many bytes. -/
def BoundedBy (emits : List Byte → Prop) (bound : Nat) : Prop :=
  ∀ emitted, emits emitted → emitted.length ≤ bound

/-! ## Reading after a call -/

/-- What one `read_result` does after a call that needs more destination. -/
inductive ReadAfter (before : World σ p) (channel : Channel σ) (native : Native σ Byte Byte ε)
    (source : List Byte) (results : List Byte) : Driven σ p → Prop where
  | done {more : List Byte} {after : World σ p} {next : Channel σ} (opens : after.Opens next)
      (state : next.state = (channel.feed native source).state)
      (capacity : next.capacity = channel.capacity)
      (bytes : more ++ next.pending =
        results ++ channel.pending ++ (channel.reply native source).written)
      (grows : ∀ units, UnitsAtMost native units → units ≤ channel.capacity →
        results.length < more.length)
      (later : before.environment.Later after.environment) :
      ReadAfter before channel native source results (.done more after)
  | disturbed {exception : Raised} {after : World σ p} (disturbed : Disturbed before exception) :
      ReadAfter before channel native source results (.raised exception after)

theorem readAfter_open {world : World σ p} {channel : Channel σ} {native : Native σ Byte Byte ε}
    {source : List Byte} (results : List Byte) (opens : world.Opens (channel.feed native source))
    (status : (channel.reply native source).status = .needsMore) :
    ReadAfter world channel native source results (readTimes 1 results world) := by
  have read := readTimes_open 1 results opens
  generalize readTimes 1 results world = driven at read ⊢
  cases read with
  | disturbed disturbed => exact .disturbed disturbed
  | @done more after next nextOpens state capacity bytes _ read later =>
      have empty : next.pending = [] := read (.inl Nat.one_pos)
      have whole : more = results ++ (channel.feed native source).pending := by
        rw [← bytes, empty, List.append_nil]
      refine .done nextOpens state capacity ?_ ?_ later
      · rw [bytes, Channel.feed_pending, List.append_assoc]
      · intro units law enough
        have positive : 0 < (channel.feed native source).pending.length :=
          Channel.feed_pending_pos law enough status
        rw [whole, List.length_append]
        omega

/-! ## Feeding -/

section Feeding

variable {native : Native σ Byte Byte ε} {resultOf : ε → ExtError} {extra : Nat → Nat}

/-- The invariant of feeding `source` from `start` into a buffer of `capacity` bytes. -/
structure FeedInvariant (native : Native σ Byte Byte ε) (start : Channel σ) (source : List Byte)
    (env : Environment) (feeding : Feeding σ p) : Prop where
  session : ∃ channel emitted, feeding.world.Opens channel ∧
    channel.capacity = start.capacity ∧
    feeding.results ++ channel.pending = emitted ∧
    Session native .cut start.state source emitted channel.state
      (feeding.unconsumed ++ feeding.chunks.flatten)
  fits : feeding.unconsumed.length + feeding.chunks.flatten.length ≤ p.maxStringLength
  later : env.Later feeding.world.environment

/-- What is known where feeding ends. -/
inductive FeedResult (native : Native σ Byte Byte ε) (resultOf : ε → ExtError)
    (start : Channel σ) (source : List Byte) (env : Environment) : Driven σ p → Prop where
  | done {results : List Byte} {world : World σ p} {channel : Channel σ} {rest : List Byte}
      (opens : world.Opens channel) (capacity : channel.capacity = start.capacity)
      (ends : Ends native .cut start.state source (results ++ channel.pending)
        (.finished channel.state rest))
      (later : env.Later world.environment) :
      FeedResult native resultOf start source env (.done results world)
  | failed {world : World σ p} {emitted : List Byte} {code : ε}
      (ends : Ends native .cut start.state source emitted (.failed code)) :
      FeedResult native resultOf start source env
        (.raised (lzwsExtRaiseError (resultOf code)) world)
  | disturbed {world : World σ p} {exception : Raised} (outside : exception.FromEnvironment)
      (unquiet : ¬ env.Quiet) :
      FeedResult native resultOf start source env (.raised exception world)

/-- What one turn of feeding can do: another turn that has grown, or the end. -/
inductive FeedTurn (native : Native σ Byte Byte ε) (resultOf : ε → ExtError)
    (start : Channel σ) (source : List Byte) (env : Environment) (before : Feeding σ p) :
    Turn (Feeding σ p) (Driven σ p) → Prop where
  | more {next : Feeding σ p} (kept : FeedInvariant native start source env next)
      (chunks : next.chunks = before.chunks)
      (grows : ∀ units, UnitsAtMost native units → units ≤ start.capacity →
        before.results.length < next.results.length) :
      FeedTurn native resultOf start source env before (.again next)
  | next {next : Feeding σ p} (kept : FeedInvariant native start source env next)
      (chunks : next.chunks.length < before.chunks.length)
      (grows : before.results.length ≤ next.results.length) :
      FeedTurn native resultOf start source env before (.again next)
  | ends {driven : Driven σ p} (result : FeedResult native resultOf start source env driven) :
      FeedTurn native resultOf start source env before (.leave driven)

theorem feedTurn_result (resultOf : ε → ExtError) (extra : Nat → Nat) {start : Channel σ}
    {source : List Byte} {env : Environment} {feeding : Feeding σ p}
    (invariant : FeedInvariant native start source env feeding) :
    FeedTurn native resultOf start source env feeding
      (feedTurn (callStream native resultOf) extra feeding) := by
  obtain ⟨⟨channel, emitted, opens, capacity, bytes, session⟩, fits, later⟩ := invariant
  have fitsOne : feeding.unconsumed.length ≤ p.maxStringLength := by omega
  unfold feedTurn
  have extraRead := readTimes_open (extra feeding.calls) feeding.results opens
  generalize readTimes (extra feeding.calls) feeding.results feeding.world = driven
    at extraRead ⊢
  cases extraRead with
  | disturbed disturbed =>
      exact .ends (.disturbed disturbed.outside fun calm => disturbed.unquiet (calm.later later))
  | @done results world reading readOpens state readCapacity same grows _ readLater =>
      have called := callStream_open native resultOf ⟨feeding.unconsumed, fitsOne⟩ readOpens
      simp only [fitsOne, ↓reduceDIte]
      generalize callStream native resultOf (.string ⟨feeding.unconsumed, fitsOne⟩) world = effect
        at called ⊢
      have soFar : results ++ reading.pending = emitted := same.trans bytes
      have lastEnv : env.Later world.environment := later.trans readLater
      rw [← state] at session
      cases called with
      | notRun idle unquiet =>
          exact .ends (.disturbed (.inl rfl) fun calm => unquiet (calm.later lastEnv))
      | interrupted ran unquiet =>
          exact .ends (.disturbed (.inl rfl) fun calm => unquiet (calm.later lastEnv))
      | noMemory ran unquiet =>
          exact .ends (.disturbed (.inr rfl) fun calm => unquiet (calm.later lastEnv))
      | failed ran status =>
          exact .ends (.failed (.failed session (fun impossible => by cases impossible) status))
      | @done after ran status =>
          have fed : results ++ (reading.feed native feeding.unconsumed).pending =
              emitted ++ (reading.reply native feeding.unconsumed).written := by
            rw [← soFar, Channel.feed_pending, List.append_assoc]
          have lastCapacity : (reading.feed native feeding.unconsumed).capacity =
              start.capacity := readCapacity.trans capacity
          simp only
          cases chunksEq : feeding.chunks with
          | nil =>
              rw [chunksEq, List.flatten_nil, List.append_nil] at session
              have ends : Ends native .cut start.state source
                  (results ++ (reading.feed native feeding.unconsumed).pending)
                  (.finished (reading.feed native feeding.unconsumed).state
                    (feeding.unconsumed.drop
                      (reading.reply native feeding.unconsumed).consumed)) := by
                rw [fed]
                exact .finished session status
              exact .ends (.done ran.opens lastCapacity ends (lastEnv.trans ran.later))
          | cons chunk chunks =>
              have moved := Session.call session (fun impossible => by cases impossible)
                (.inr ⟨rfl, status⟩)
              have rest : (feeding.unconsumed.drop
                    (reading.reply native feeding.unconsumed).consumed) ++
                  feeding.chunks.flatten =
                feeding.unconsumed.drop (reading.reply native feeding.unconsumed).consumed ++
                  chunk ++ chunks.flatten := by
                rw [chunksEq, List.flatten_cons, List.append_assoc]
              refine .next ⟨⟨_, _, ran.opens, lastCapacity, fed, ?_⟩, ?_, ?_⟩ ?_ grows
              · rw [← rest]
                exact moved
              · rw [chunksEq, List.flatten_cons, List.length_append] at fits
                simp only [List.length_append, List.length_drop]
                omega
              · exact lastEnv.trans ran.later
              · simp [chunksEq]
      | @needsMore after ran status =>
          have moved := Session.call session (fun impossible => by cases impossible) (.inl status)
          have lastRead := readAfter_open results ran.opens status
          simp only
          generalize readTimes 1 results after = last at lastRead ⊢
          cases lastRead with
          | disturbed disturbed =>
              exact .ends (.disturbed disturbed.outside fun calm =>
                disturbed.unquiet (calm.later (lastEnv.trans ran.later)))
          | @done last final next nextOpens nextState nextCapacity nextBytes nextGrows nextLater =>
              have sameCapacity : next.capacity = start.capacity :=
                (nextCapacity.trans readCapacity).trans capacity
              rw [soFar] at nextBytes
              refine .more ⟨⟨next, _, nextOpens, sameCapacity, nextBytes, ?_⟩, ?_, ?_⟩ rfl ?_
              · rw [nextState]
                exact moved
              · simp only [List.length_drop]
                omega
              · exact (lastEnv.trans ran.later).trans nextLater
              · intro units law enough
                have longer := nextGrows units law (by rw [readCapacity, capacity]; exact enough)
                exact Nat.lt_of_le_of_lt grows longer

/-- The run lemma of feeding. -/
theorem feedLoop_result {start : Channel σ} {source : List Byte} {env : Environment}
    {feeding : Feeding σ p} {driven : Driven σ p}
    (invariant : FeedInvariant native start source env feeding)
    (leaves : Leaves (feedTurn (callStream native resultOf) extra) feeding driven) :
    FeedResult native resultOf start source env driven := by
  refine leaves.invariant (FeedInvariant native start source env)
    (FeedResult native resultOf start source env) ?_ ?_ invariant
  · intro before next kept turned
    have result := feedTurn_result resultOf extra kept
    rw [turned] at result
    cases result with
    | more kept _ _ => exact kept
    | next kept _ _ => exact kept
  · intro before last kept turned
    have result := feedTurn_result resultOf extra kept
    rw [turned] at result
    cases result with
    | ends result => exact result

theorem FeedInvariant.results_le {start : Channel σ} {source : List Byte} {env : Environment}
    {feeding : Feeding σ p} {bound : Nat}
    (invariant : FeedInvariant native start source env feeding)
    (bounded : BoundedBy (Emits native .cut start.state source) bound) :
    feeding.results.length ≤ bound := by
  obtain ⟨channel, emitted, _, _, bytes, session⟩ := invariant.session
  have whole := bounded emitted ⟨_, _, session⟩
  rw [← bytes, List.length_append] at whole
  omega

/-- Feeding ends: every turn reads something more, or writes the next chunk. -/
theorem feedLoop_leaves {start : Channel σ} {source : List Byte} {env : Environment}
    {feeding : Feeding σ p} {units bound : Nat} (law : UnitsAtMost native units)
    (enough : units ≤ start.capacity)
    (bounded : BoundedBy (Emits native .cut start.state source) bound)
    (invariant : FeedInvariant native start source env feeding) :
    ∃ driven, Leaves (feedTurn (callStream native resultOf) extra) feeding driven := by
  refine Leaves.of_measure (FeedInvariant native start source env)
    (fun feeding => bound - feeding.results.length + feeding.chunks.length) ?_ invariant
  intro before next kept turned
  have result := feedTurn_result resultOf extra kept
  rw [turned] at result
  cases result with
  | more nextKept chunks grows =>
      have longer := grows units law enough
      have below := nextKept.results_le bounded
      refine ⟨nextKept, ?_⟩
      rw [chunks]
      omega
  | next nextKept chunks grows =>
      have below := nextKept.results_le bounded
      exact ⟨nextKept, by omega⟩

/-- The invariant holds before the first turn. -/
theorem FeedInvariant.start {start : Channel σ} {world : World σ p} (opens : world.Opens start)
    (empty : start.pending = []) {chunk : List Byte} {chunks : List (List Byte)}
    (fits : (chunk :: chunks).flatten.length ≤ p.maxStringLength) :
    FeedInvariant native start (chunk :: chunks).flatten world.environment
      ⟨world, chunk, chunks, [], 0⟩ := by
  constructor
  · exact ⟨start, [], opens, rfl, empty, .start⟩
  · rw [List.flatten_cons, List.length_append] at fits
    exact fits
  · exact .refl _

theorem feed_result {start : Channel σ} {world : World σ p} {chunks : List (List Byte)}
    {fuel : Nat} {driven : Driven σ p} (opens : world.Opens start) (empty : start.pending = [])
    (fits : chunks.flatten.length ≤ p.maxStringLength)
    (driving : feed (callStream native resultOf) extra fuel chunks world = some driven) :
    FeedResult native resultOf start chunks.flatten world.environment driven := by
  cases chunks with
  | nil =>
      cases driving
      have ends : Ends native .cut start.state [].flatten ([] ++ start.pending)
          (.finished start.state []) := by
        rw [empty]
        exact .untouched rfl rfl
      exact .done opens rfl ends (.refl _)
  | cons chunk chunks => exact feedLoop_result (.start opens empty fits) (.of_run driving)

theorem feed_ends (resultOf : ε → ExtError) (extra : Nat → Nat) {start : Channel σ}
    {world : World σ p} {chunks : List (List Byte)} {units bound : Nat}
    (law : UnitsAtMost native units) (enough : units ≤ start.capacity)
    (bounded : BoundedBy (Emits native .cut start.state chunks.flatten) bound)
    (opens : world.Opens start) (empty : start.pending = [])
    (fits : chunks.flatten.length ≤ p.maxStringLength) :
    ∃ limit driven, ∀ fuel, limit ≤ fuel →
      feed (callStream native resultOf) extra fuel chunks world = some driven := by
  cases chunks with
  | nil => exact ⟨0, _, fun _ _ => rfl⟩
  | cons chunk chunks =>
      obtain ⟨driven, leaves⟩ := feedLoop_leaves law enough bounded (.start opens empty fits)
      obtain ⟨limit, executed⟩ := leaves.run_eventually
      exact ⟨limit, driven, executed⟩

end Feeding

/-! ## Finishing -/

section Finishing

variable {finish : Finish σ Byte ε} {resultOf : ε → ExtError} {extra : Nat → Nat}

/-- The invariant of finishing after `fed` has been emitted. -/
structure FinishInvariant (finish : Finish σ Byte ε) (middle : σ) (capacity : Nat)
    (fed : List Byte) (env : Environment) (finishing : Finishing σ p) : Prop where
  session : ∃ channel emitted, finishing.world.Opens channel ∧ channel.capacity = capacity ∧
    finishing.results ++ channel.pending = fed ++ emitted ∧
    Session (Native.ofFinish finish) .whole middle ([] : List Byte) emitted channel.state []
  later : env.Later finishing.world.environment

/-- What is known where finishing ends. -/
inductive FinishResult (finish : Finish σ Byte ε) (resultOf : ε → ExtError) (middle : σ)
    (fed : List Byte) (env : Environment) : Driven σ p → Prop where
  | done {results emitted : List Byte} {world : World σ p} {channel : Channel σ}
      (opens : world.Opens channel) (bytes : results ++ channel.pending = fed ++ emitted)
      (ends : Ends (Native.ofFinish finish) .whole middle ([] : List Byte) emitted
        (.finished channel.state []))
      (later : env.Later world.environment) :
      FinishResult finish resultOf middle fed env (.done results world)
  | failed {world : World σ p} {emitted : List Byte} {code : ε}
      (ends : Ends (Native.ofFinish finish) .whole middle ([] : List Byte) emitted
        (.failed code)) :
      FinishResult finish resultOf middle fed env
        (.raised (lzwsExtRaiseError (resultOf code)) world)
  | disturbed {world : World σ p} {exception : Raised} (outside : exception.FromEnvironment)
      (unquiet : ¬ env.Quiet) :
      FinishResult finish resultOf middle fed env (.raised exception world)

/-- What one turn of finishing can do. -/
inductive FinishTurn (finish : Finish σ Byte ε) (resultOf : ε → ExtError) (middle : σ)
    (capacity : Nat) (fed : List Byte) (env : Environment) (before : Finishing σ p) :
    Turn (Finishing σ p) (Driven σ p) → Prop where
  | more {next : Finishing σ p} (kept : FinishInvariant finish middle capacity fed env next)
      (grows : ∀ units, UnitsAtMost (α := Byte) (Native.ofFinish finish) units →
        units ≤ capacity → before.results.length < next.results.length) :
      FinishTurn finish resultOf middle capacity fed env before (.again next)
  | ends {driven : Driven σ p} (result : FinishResult finish resultOf middle fed env driven) :
      FinishTurn finish resultOf middle capacity fed env before (.leave driven)

theorem finishTurn_result (resultOf : ε → ExtError) (extra : Nat → Nat) {middle : σ}
    {capacity : Nat} {fed : List Byte} {env : Environment} {finishing : Finishing σ p}
    (invariant : FinishInvariant finish middle capacity fed env finishing) :
    FinishTurn finish resultOf middle capacity fed env finishing
      (finishTurn (finishStream finish resultOf) extra finishing) := by
  obtain ⟨⟨channel, emitted, opens, sameCapacity, bytes, session⟩, later⟩ := invariant
  unfold finishTurn
  have extraRead := readTimes_open (extra finishing.calls) finishing.results opens
  generalize readTimes (extra finishing.calls) finishing.results finishing.world = driven
    at extraRead ⊢
  cases extraRead with
  | disturbed disturbed =>
      exact .ends (.disturbed disturbed.outside fun calm => disturbed.unquiet (calm.later later))
  | @done results world reading readOpens state readCapacity same grows _ readLater =>
      have called := finishStream_open finish resultOf readOpens
      simp only
      generalize finishStream finish resultOf world = effect at called ⊢
      have soFar : results ++ reading.pending = fed ++ emitted := same.trans bytes
      have lastEnv : env.Later world.environment := later.trans readLater
      rw [← state] at session
      cases called with
      | notRun idle unquiet =>
          exact .ends (.disturbed (.inl rfl) fun calm => unquiet (calm.later lastEnv))
      | interrupted ran unquiet =>
          exact .ends (.disturbed (.inl rfl) fun calm => unquiet (calm.later lastEnv))
      | noMemory ran unquiet =>
          exact .ends (.disturbed (.inr rfl) fun calm => unquiet (calm.later lastEnv))
      | failed ran status => exact .ends (.failed (.failed_all session status))
      | @done after ran status =>
          have fedNow : results ++ (reading.feed (Native.ofFinish finish) []).pending =
              fed ++ (emitted ++ (reading.reply (Native.ofFinish finish) []).written) := by
            rw [Channel.feed_pending, ← List.append_assoc, soFar, List.append_assoc]
          exact .ends (.done ran.opens fedNow (.finished session status) (lastEnv.trans ran.later))
      | @needsMore after ran status =>
          have moved := session.call_all _ (.inl status)
          have lastRead := readAfter_open results ran.opens status
          simp only
          generalize readTimes 1 results after = last at lastRead ⊢
          cases lastRead with
          | disturbed disturbed =>
              exact .ends (.disturbed disturbed.outside fun calm =>
                disturbed.unquiet (calm.later (lastEnv.trans ran.later)))
          | @done last final next nextOpens nextState nextCapacity nextBytes nextGrows nextLater =>
              have nowCapacity : next.capacity = capacity :=
                (nextCapacity.trans readCapacity).trans sameCapacity
              rw [soFar, List.append_assoc] at nextBytes
              refine .more ⟨⟨next, _, nextOpens, nowCapacity, nextBytes, ?_⟩, ?_⟩ ?_
              · rw [nextState]
                exact moved
              · exact (lastEnv.trans ran.later).trans nextLater
              · intro units law enough
                have longer := nextGrows units law (by rw [readCapacity, sameCapacity]; exact enough)
                exact Nat.lt_of_le_of_lt grows longer

/-- The run lemma of finishing. -/
theorem finishLoop_result {middle : σ} {capacity : Nat} {fed : List Byte} {env : Environment}
    {finishing : Finishing σ p} {driven : Driven σ p}
    (invariant : FinishInvariant finish middle capacity fed env finishing)
    (leaves : Leaves (finishTurn (finishStream finish resultOf) extra) finishing driven) :
    FinishResult finish resultOf middle fed env driven := by
  refine leaves.invariant (FinishInvariant finish middle capacity fed env)
    (FinishResult finish resultOf middle fed env) ?_ ?_ invariant
  · intro before next kept turned
    have result := finishTurn_result resultOf extra kept
    rw [turned] at result
    cases result with
    | more kept _ => exact kept
  · intro before last kept turned
    have result := finishTurn_result resultOf extra kept
    rw [turned] at result
    cases result with
    | ends result => exact result

/-- Finishing ends: every turn reads something more. -/
theorem finishLoop_leaves (resultOf : ε → ExtError) (extra : Nat → Nat) {middle : σ}
    {capacity : Nat} {fed : List Byte} {env : Environment} {finishing : Finishing σ p}
    {units bound : Nat} (law : UnitsAtMost (α := Byte) (Native.ofFinish finish) units)
    (enough : units ≤ capacity)
    (bounded : ∀ emitted state, Session (Native.ofFinish finish) .whole middle ([] : List Byte)
      emitted state [] → (fed ++ emitted).length ≤ bound)
    (invariant : FinishInvariant finish middle capacity fed env finishing) :
    ∃ driven, Leaves (finishTurn (finishStream finish resultOf) extra) finishing driven := by
  refine Leaves.of_measure (FinishInvariant finish middle capacity fed env)
    (fun finishing => bound - finishing.results.length) ?_ invariant
  intro before next kept turned
  have result := finishTurn_result resultOf extra kept
  rw [turned] at result
  cases result with
  | more nextKept grows =>
      have longer := grows units law enough
      obtain ⟨channel, emitted, _, _, bytes, session⟩ := nextKept.session
      have below := bounded emitted channel.state session
      rw [← bytes, List.length_append] at below
      exact ⟨nextKept, by omega⟩

end Finishing

/-! ## Whole drives -/

/-- What is known where a driven object has been read to the end. -/
inductive DriveResult (resultOf : ε → ExtError) (env : Environment)
    (ends : List Byte → Verdict Byte ε → Prop) : Driven σ p → Prop where
  | done {results rest : List Byte} {world : World σ p} (finished : ends results (.finished rest)) :
      DriveResult resultOf env ends (.done results world)
  | failed {world : World σ p} {emitted : List Byte} {code : ε}
      (failed : ends emitted (.failed code)) :
      DriveResult resultOf env ends (.raised (lzwsExtRaiseError (resultOf code)) world)
  | disturbed {world : World σ p} {exception : Raised} (outside : exception.FromEnvironment)
      (unquiet : ¬ env.Quiet) :
      DriveResult resultOf env ends (.raised exception world)

/-- The last reads hand out all that is pending. -/
theorem DriveResult.of_last {resultOf : ε → ExtError} {env : Environment}
    {ends : List Byte → Verdict Byte ε → Prop} {world : World σ p} {channel : Channel σ}
    {results rest : List Byte} (last : Nat) (opens : world.Opens channel)
    (later : env.Later world.environment)
    (finished : ends (results ++ channel.pending) (.finished rest)) :
    DriveResult resultOf env ends (readTimes (last + 1) results world) := by
  have read := readTimes_open (last + 1) results opens
  generalize readTimes (last + 1) results world = driven at read ⊢
  cases read with
  | disturbed disturbed =>
      exact .disturbed disturbed.outside fun calm => disturbed.unquiet (calm.later later)
  | done _ _ _ bytes _ empty _ =>
      rw [empty (.inl (Nat.succ_pos last)), List.append_nil] at bytes
      rw [← bytes] at finished
      exact .done finished

section Compressor

variable {codec : CompressorCodec σ} {schedule : Schedule} {world : World σ p}
  {start : Channel σ} {chunks : List (List Byte)}

/-- The run lemma of driving a compressor. -/
theorem driveCompressor_result (law : ConsumesAll codec.compress) (opens : world.Opens start)
    (empty : start.pending = []) (fits : chunks.flatten.length ≤ p.maxStringLength) {fuel : Nat}
    {driven : Driven σ p}
    (driving : driveCompressor codec schedule fuel chunks world = some driven) :
    DriveResult (fun _ => .unexpected) world.environment
      (PairEnds codec.compress codec.finishNative .cut start.state chunks.flatten) driven := by
  unfold driveCompressor at driving
  cases feeding : feed (lzwsExtCompress codec) schedule.feeding fuel chunks world with
  | none =>
      rw [feeding] at driving
      cases driving
  | some fed =>
      rw [feeding] at driving
      cases feed_result opens empty fits feeding with
      | failed ends =>
          cases driving
          exact .failed (.feedFailed ends)
      | disturbed outside unquiet =>
          cases driving
          exact .disturbed outside unquiet
      | @done results middleWorld channel rest middleOpens capacity ends later =>
          cases law.rest_eq_nil ends
          have invariant : FinishInvariant codec.finish channel.state start.capacity
              (results ++ channel.pending) world.environment ⟨middleWorld, results, 0⟩ :=
            ⟨⟨channel, [], middleOpens, capacity, (List.append_nil _).symm, .start⟩, later⟩
          simp only at driving
          cases finishing : run (finishTurn (lzwsExtCompressorFinish codec) schedule.finishing)
              fuel ⟨middleWorld, results, 0⟩ with
          | none =>
              rw [finishing] at driving
              cases driving
          | some finished =>
              rw [finishing] at driving
              cases finishLoop_result invariant (.of_run finishing) with
              | failed failure =>
                  cases driving
                  exact .failed (.finished ends failure)
              | disturbed outside unquiet =>
                  cases driving
                  exact .disturbed outside unquiet
              | done lastOpens bytes lastEnds lastLater =>
                  cases driving
                  have total : PairEnds codec.compress codec.finishNative .cut start.state
                      chunks.flatten _ (.finished []) := .finished ends lastEnds
                  rw [← bytes] at total
                  exact .of_last schedule.last lastOpens lastLater total

/-- Driving a compressor ends, if the buffer holds every unit and the codec's output is bounded. -/
theorem driveCompressor_ends {units bound : Nat} (feedLaw : UnitsAtMost codec.compress units)
    (finishLaw : UnitsAtMost codec.finishNative units) (law : ConsumesAll codec.compress)
    (enough : units ≤ start.capacity)
    (bounded : BoundedBy
      (PairSession codec.compress codec.finishNative .cut start.state chunks.flatten) bound)
    (opens : world.Opens start) (empty : start.pending = [])
    (fits : chunks.flatten.length ≤ p.maxStringLength) :
    ∃ fuel driven, driveCompressor codec schedule fuel chunks world = some driven := by
  have feedBounded : BoundedBy (Emits codec.compress .cut start.state chunks.flatten) bound := by
    rintro emitted ⟨state, rest, session⟩
    exact bounded emitted (.feeding session)
  obtain ⟨feedLimit, fed, feeding⟩ := feed_ends (fun _ => .unexpected) schedule.feeding feedLaw
    enough feedBounded opens empty fits
  have first := feeding feedLimit (Nat.le_refl _)
  cases feed_result opens empty fits first with
  | failed ends =>
      refine ⟨feedLimit, ?_⟩
      unfold driveCompressor lzwsExtCompress
      rw [first]
      exact ⟨_, rfl⟩
  | disturbed outside unquiet =>
      refine ⟨feedLimit, ?_⟩
      unfold driveCompressor lzwsExtCompress
      rw [first]
      exact ⟨_, rfl⟩
  | @done results middleWorld channel rest middleOpens capacity ends later =>
      cases law.rest_eq_nil ends
      have invariant : FinishInvariant codec.finish channel.state start.capacity
          (results ++ channel.pending) world.environment ⟨middleWorld, results, 0⟩ :=
        ⟨⟨channel, [], middleOpens, capacity, (List.append_nil _).symm, .start⟩, later⟩
      obtain ⟨finished, leaves⟩ := finishLoop_leaves (fun _ => .unexpected) schedule.finishing
        finishLaw enough
        (fun emitted state session => bounded _ (.finishing ends session)) invariant
      obtain ⟨finishLimit, executed⟩ := leaves.run_eventually
      have fedFirst := feeding (max feedLimit finishLimit) (Nat.le_max_left _ _)
      have finishedThen := executed (max feedLimit finishLimit) (Nat.le_max_right _ _)
      refine ⟨max feedLimit finishLimit, ?_⟩
      unfold driveCompressor lzwsExtCompress lzwsExtCompressorFinish
      rw [fedFirst]
      simp only [finishedThen]
      cases finished with
      | done results world => exact ⟨_, rfl⟩
      | raised exception world => exact ⟨_, rfl⟩
      | undefined => exact ⟨_, rfl⟩

end Compressor

section Decompressor

variable {codec : DecompressorCodec σ} {schedule : Schedule} {world : World σ p}
  {start : Channel σ} {chunks : List (List Byte)}

/-- The run lemma of driving a decompressor. -/
theorem driveDecompressor_result (opens : world.Opens start) (empty : start.pending = [])
    (fits : chunks.flatten.length ≤ p.maxStringLength) {fuel : Nat} {driven : Driven σ p}
    (driving : driveDecompressor codec schedule fuel chunks world = some driven) :
    DriveResult decompressResult world.environment
      (EndsWith codec.decompress .cut start.state chunks.flatten) driven := by
  unfold driveDecompressor at driving
  cases feeding : feed (lzwsExtDecompress codec) schedule.feeding fuel chunks world with
  | none =>
      rw [feeding] at driving
      cases driving
  | some fed =>
      rw [feeding] at driving
      cases feed_result opens empty fits feeding with
      | failed ends =>
          cases driving
          exact .failed ends.endsWith
      | disturbed outside unquiet =>
          cases driving
          exact .disturbed outside unquiet
      | done lastOpens _ ends later =>
          cases driving
          exact .of_last schedule.last lastOpens later ends.endsWith

/-- Driving a decompressor ends, under the same conditions. -/
theorem driveDecompressor_ends {units bound : Nat} (law : UnitsAtMost codec.decompress units)
    (enough : units ≤ start.capacity)
    (bounded : BoundedBy (Emits codec.decompress .cut start.state chunks.flatten) bound)
    (opens : world.Opens start) (empty : start.pending = [])
    (fits : chunks.flatten.length ≤ p.maxStringLength) :
    ∃ fuel driven, driveDecompressor codec schedule fuel chunks world = some driven := by
  obtain ⟨limit, fed, feeding⟩ := feed_ends decompressResult schedule.feeding law enough bounded
    opens empty fits
  have first := feeding limit (Nat.le_refl _)
  refine ⟨limit, ?_⟩
  unfold driveDecompressor lzwsExtDecompress
  rw [first]
  cases fed with
  | done results world => exact ⟨_, rfl⟩
  | raised exception world => exact ⟨_, rfl⟩
  | undefined => exact ⟨_, rfl⟩

end Decompressor

end RubyLzws.Ext
