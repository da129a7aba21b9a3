import RubyLzws.Ext.KeptLock

/-!
# What interrupts do to a stream object

An object that releases the lock is followed next to one that keeps it.  As long as memory
suffices, a list of methods shows what those of them that did run show with the lock kept,
except that the answers of some are lost to an interrupt.
-/

namespace RubyLzws.Ext

open Library.Transducer

variable {σ ε ω : Type} {p : Platform} {μ : Type}

/-! ## The lock of contents -/

def Channel.keepLock (channel : Channel σ) : Channel σ := { channel with gvl := true }

def Contents.keepLock (contents : Contents σ) : Contents σ := contents.map Channel.keepLock

def Observed.keepLock (observed : Observed σ) : Observed σ where
  seen := observed.seen
  contents := observed.contents.keepLock
  environment := observed.environment.withoutDeliveries

/-- The same method, asked to keep the lock where it is asked about it. -/
def CompressorMethod.keepLock : CompressorMethod p → CompressorMethod p
  | .initializeObject options => .initializeObject options.keepLock
  | method => method

def DecompressorMethod.keepLock : DecompressorMethod p → DecompressorMethod p
  | .initializeObject options => .initializeObject options.keepLock
  | method => method

/-- What becomes of a method, next to what it does with the lock kept. -/
inductive Passes (contents : Contents σ) (env : Environment) (locked : Observed σ) :
    Observed σ → Prop where
  | ran {observed : Observed σ} (same : locked = observed.keepLock) :
      Passes contents env locked observed
  | notRun {after : Environment} (same : after.withoutDeliveries = env.withoutDeliveries) :
      Passes contents env locked ⟨.raised .interrupt, contents, after⟩
  | answerLost {left : Contents σ} {after : Environment}
      (ran : locked.contents = left.keepLock)
      (same : after.withoutDeliveries = env.withoutDeliveries) :
      Passes contents env locked ⟨.raised .interrupt, left, after⟩

/-- Interrupts come before a method or after it, never in between. -/
def PassesWhole (observe : μ → Contents σ → Environment → Observed σ) (keepLock : μ → μ) : Prop :=
  ∀ method contents env, Passes contents env
    (observe (keepLock method) contents.keepLock env.withoutDeliveries)
    (observe method contents env)

/-- The end of a method in surroundings that are still quiet. -/
structure Observed.EndsQuietly (observed : Observed σ) (seen : Seen) (left : Contents σ) :
    Prop where
  seen : observed.seen = seen
  contents : observed.contents = left
  quiet : observed.environment.Quiet

/-- In quiet surroundings it is the contents that decide. -/
def DependsOnContents (observe : μ → Contents σ → Environment → Observed σ) : Prop :=
  ∀ method contents, ∃ seen left, ∀ env : Environment, env.Quiet →
    (observe method contents env).EndsQuietly seen left

/-! ## Each method next to itself -/

section Methods

/-- What follows a codec call asks the surroundings for memory only. -/
def AsksForMemory (seen : Nat → Status ε → Environment → Seen × Environment) : Prop :=
  ∀ consumed status env,
    seen consumed status env.withoutDeliveries = withoutDeliveries (seen consumed status env)

theorem callSeen_asksForMemory (resultOf : ε → ExtError) : AsksForMemory (callSeen resultOf) := by
  intro consumed status env
  cases status with
  | ok => rfl
  | needsMore => rfl
  | error code => rfl

theorem finishSeen_asksForMemory (resultOf : ε → ExtError) :
    AsksForMemory (finishSeen resultOf) := by
  intro consumed status env
  cases status with
  | ok => rfl
  | needsMore => rfl
  | error code => rfl

theorem Channel.wrapped_passes {seen : Nat → Status ε → Environment → Seen × Environment}
    (asks : AsksForMemory seen) (channel : Channel σ) (native : Native σ Byte Byte ε)
    (source : List Byte) (env : Environment) :
    Passes (some channel) env
      (channel.keepLock.wrapped p native source seen env.withoutDeliveries)
      (channel.wrapped p native source seen env) := by
  have same := gvlWrap_withoutDeliveries p channel.gvl env
  have locked : channel.keepLock.wrapped p native source seen env.withoutDeliveries =
      ⟨(seen (channel.reply native source).consumed (channel.reply native source).status
          env.withoutDeliveries).1, Contents.keepLock (some (channel.feed native source)),
        (seen (channel.reply native source).consumed (channel.reply native source).status
          env.withoutDeliveries).2⟩ := rfl
  rw [locked, Channel.wrapped]
  generalize gvlWrap p channel.gvl env = wrapped at same ⊢
  rcases wrapped with ⟨delivery, after⟩
  cases delivery with
  | before => exact .notRun same
  | after => exact .answerLost rfl same
  | nothing =>
      apply Passes.ran
      rw [← same, asks]
      rfl

theorem Contents.call_passes (native : Native σ Byte Byte ε) (resultOf : ε → ExtError)
    (sourceValue : Value p) (contents : Contents σ) (env : Environment) :
    Passes contents env
      (contents.keepLock.call native resultOf sourceValue env.withoutDeliveries)
      (contents.call native resultOf sourceValue env) := by
  cases contents with
  | none => exact .ran rfl
  | some channel =>
      simp only [Contents.keepLock, Option.map_some, Contents.call, Contents.whenOpen_some]
      cases checkString sourceValue with
      | error exception => exact .ran rfl
      | ok source => exact channel.wrapped_passes (callSeen_asksForMemory _) native _ env

theorem Contents.finish_passes (finish : Finish σ Byte ε) (resultOf : ε → ExtError)
    (contents : Contents σ) (env : Environment) :
    Passes contents env (contents.keepLock.finish p finish resultOf env.withoutDeliveries)
      (contents.finish p finish resultOf env) := by
  cases contents with
  | none => exact .ran rfl
  | some channel => exact channel.wrapped_passes (finishSeen_asksForMemory _) _ _ env

theorem Contents.readResult_passes (contents : Contents σ) (env : Environment) :
    Passes contents env (contents.keepLock.readResult env.withoutDeliveries)
      (contents.readResult env) := by
  cases contents with
  | none => exact .ran rfl
  | some channel =>
      apply Passes.ran
      simp only [Contents.keepLock, Option.map_some, Contents.readResult, Contents.whenOpen_some,
        Environment.nextStringFailure_withoutDeliveries]
      by_cases raises : env.nextStringFailure.1 = true
      · simp only [raises, ↓reduceIte]
        rfl
      · simp only [raises, Bool.false_eq_true, ↓reduceIte]
        rfl

theorem Contents.close_passes (contents : Contents σ) (env : Environment) :
    Passes contents env (contents.keepLock.close env.withoutDeliveries) (contents.close env) := by
  cases contents with
  | none => exact .ran rfl
  | some channel => exact .ran rfl

theorem Contents.initializeObject_passes {arguments : Except Raised (Nat × Bool × ω)}
    {getInitialState : ω → Environment → Except ε σ × Environment} {errorOf : ε → Raised}
    {create : Nat → Bool → Option Nat} {quiet : ω → Bool}
    (obtains : ∀ options env, getInitialState options env.withoutDeliveries =
      withoutDeliveries (getInitialState options env))
    (contents : Contents σ) (env : Environment) :
    Passes contents env
      (contents.keepLock.initializeObject p
        ((fun (length, _, options) => (length, true, options)) <$> arguments) getInitialState
        errorOf create quiet env.withoutDeliveries)
      (contents.initializeObject p arguments getInitialState errorOf create quiet env) := by
  apply Passes.ran
  unfold Contents.initializeObject
  cases arguments with
  | error exception => rfl
  | ok values =>
      rcases values with ⟨length, gvl, options⟩
      simp only [Functor.map, Except.map]
      rw [obtains]
      generalize getInitialState options env = result
      rcases result with ⟨obtained, after⟩
      cases obtained with
      | error code => rfl
      | ok state =>
          simp only [Prod.map_apply, id_eq, Environment.nextNativeFailure_withoutDeliveries]
          cases create length (quiet options) with
          | none => rfl
          | some made =>
              by_cases fits : after.nextNativeFailure.1 = false ∧ made ≤ p.maxStringLength
              · simp only [fits, and_self, ↓reduceIte]
                rfl
              · simp only [fits, ↓reduceIte]
                rfl

/-! ## Each method in quiet surroundings -/

/-- What follows a codec call depends on the codec, where memory suffices. -/
def AnswersQuietly (seen : Nat → Status ε → Environment → Seen × Environment) : Prop :=
  ∀ consumed status, ∃ answer, ∀ env : Environment, env.Quiet →
    (seen consumed status env).1 = answer ∧ (seen consumed status env).2.Quiet

theorem progressSeen_quiet (consumed : Nat) (needsMoreDestination : Bool) {env : Environment}
    (quiet : env.Quiet) :
    (progressSeen consumed needsMoreDestination env).1 =
        .progress consumed needsMoreDestination ∧
      (progressSeen consumed needsMoreDestination env).2.Quiet := by
  simp only [progressSeen, quiet.nextArrayFailure, Bool.false_eq_true, ↓reduceIte, true_and]
  exact quiet.later env.later_nextArrayFailure

theorem callSeen_answersQuietly (resultOf : ε → ExtError) : AnswersQuietly (callSeen resultOf) := by
  intro consumed status
  cases status with
  | ok => exact ⟨_, fun env quiet => progressSeen_quiet consumed false quiet⟩
  | needsMore => exact ⟨_, fun env quiet => progressSeen_quiet consumed true quiet⟩
  | error code => exact ⟨_, fun env quiet => ⟨rfl, quiet⟩⟩

theorem finishSeen_answersQuietly (resultOf : ε → ExtError) :
    AnswersQuietly (finishSeen resultOf) := by
  intro consumed status
  cases status with
  | ok => exact ⟨_, fun env quiet => ⟨rfl, quiet⟩⟩
  | needsMore => exact ⟨_, fun env quiet => ⟨rfl, quiet⟩⟩
  | error code => exact ⟨_, fun env quiet => ⟨rfl, quiet⟩⟩

theorem Channel.wrapped_quiet {seen : Nat → Status ε → Environment → Seen × Environment}
    (answers : AnswersQuietly seen) (channel : Channel σ) (native : Native σ Byte Byte ε)
    (source : List Byte) :
    ∃ answer left, ∀ env : Environment, env.Quiet →
      (channel.wrapped p native source seen env).EndsQuietly answer left := by
  obtain ⟨answer, answered⟩ :=
    answers (channel.reply native source).consumed (channel.reply native source).status
  refine ⟨answer, some (channel.feed native source), fun env quiet => ?_⟩
  have silent := quiet.gvlWrap p channel.gvl
  have still := quiet.later (later_gvlWrap p channel.gvl env)
  rw [Channel.wrapped]
  generalize gvlWrap p channel.gvl env = wrapped at silent still ⊢
  rcases wrapped with ⟨delivery, after⟩
  cases silent
  obtain ⟨same, last⟩ := answered after still
  exact ⟨same, rfl, last⟩

theorem Contents.call_quiet (native : Native σ Byte Byte ε) (resultOf : ε → ExtError)
    (sourceValue : Value p) (contents : Contents σ) :
    ∃ seen left, ∀ env : Environment, env.Quiet →
      (contents.call native resultOf sourceValue env).EndsQuietly seen left := by
  cases contents with
  | none => exact ⟨_, _, fun env quiet => ⟨rfl, rfl, quiet⟩⟩
  | some channel =>
      simp only [Contents.call, Contents.whenOpen_some]
      cases checkString sourceValue with
      | error exception => exact ⟨_, _, fun env quiet => ⟨rfl, rfl, quiet⟩⟩
      | ok source => exact channel.wrapped_quiet (callSeen_answersQuietly _) native _

theorem Contents.finish_quiet (finish : Finish σ Byte ε) (resultOf : ε → ExtError)
    (contents : Contents σ) :
    ∃ seen left, ∀ env : Environment, env.Quiet →
      (contents.finish p finish resultOf env).EndsQuietly seen left := by
  cases contents with
  | none => exact ⟨_, _, fun env quiet => ⟨rfl, rfl, quiet⟩⟩
  | some channel => exact channel.wrapped_quiet (finishSeen_answersQuietly _) _ _

theorem Contents.readResult_quiet (contents : Contents σ) :
    ∃ seen left, ∀ env : Environment, env.Quiet →
      (contents.readResult env).EndsQuietly seen left := by
  cases contents with
  | none => exact ⟨_, _, fun env quiet => ⟨rfl, rfl, quiet⟩⟩
  | some channel =>
      refine ⟨.result channel.pending, some channel.drain, fun env quiet => ?_⟩
      simp only [Contents.readResult, Contents.whenOpen_some, quiet.nextStringFailure,
        Bool.false_eq_true, ↓reduceIte]
      exact ⟨rfl, rfl, quiet.later env.later_nextStringFailure⟩

theorem Contents.close_quiet (contents : Contents σ) :
    ∃ seen left, ∀ env : Environment, env.Quiet →
      (contents.close env).EndsQuietly seen left := by
  cases contents with
  | none => exact ⟨_, _, fun env quiet => ⟨rfl, rfl, quiet⟩⟩
  | some channel => exact ⟨_, _, fun env quiet => ⟨rfl, rfl, quiet⟩⟩

theorem Contents.initializeObject_quiet {arguments : Except Raised (Nat × Bool × ω)}
    {getInitialState : ω → Environment → Except ε σ × Environment} {initial : ω → Except ε σ}
    {errorOf : ε → Raised} {create : Nat → Bool → Option Nat} {quiet : ω → Bool}
    (obtains : ∀ options (env : Environment), env.Quiet →
      getInitialState options env = (initial options, env.nextNativeFailure.2))
    (contents : Contents σ) :
    ∃ seen left, ∀ env : Environment, env.Quiet →
      (contents.initializeObject p arguments getInitialState errorOf create quiet env).EndsQuietly
        seen left := by
  unfold Contents.initializeObject
  cases arguments with
  | error exception => exact ⟨_, _, fun env still => ⟨rfl, rfl, still⟩⟩
  | ok values =>
      rcases values with ⟨length, gvl, options⟩
      have later : ∀ env : Environment, env.Quiet → env.nextNativeFailure.2.Quiet :=
        fun env still => still.later env.later_nextNativeFailure
      cases started : initial options with
      | error code =>
          refine ⟨.raised (errorOf code), contents, fun env still => ?_⟩
          simp only [obtains options env still, started]
          exact ⟨rfl, rfl, later env still⟩
      | ok state =>
          cases created : create length (quiet options) with
          | none =>
              refine ⟨.raised (lzwsExtRaiseError .allocateFailed), contents, fun env still => ?_⟩
              simp only [obtains options env still, started, created]
              exact ⟨rfl, rfl, later _ (later env still)⟩
          | some made =>
              by_cases fits : made ≤ p.maxStringLength
              · refine ⟨.nil, some (.fresh state made gvl), fun env still => ?_⟩
                simp only [obtains options env still, started, created,
                  (later env still).nextNativeFailure, fits, and_self, ↓reduceIte]
                exact ⟨rfl, rfl, later _ (later env still)⟩
              · refine ⟨.raised (lzwsExtRaiseError .allocateFailed), contents, fun env still => ?_⟩
                simp only [obtains options env still, started, created, fits, and_false,
                  ↓reduceIte]
                exact ⟨rfl, rfl, later _ (later env still)⟩

end Methods

/-! ## Both classes -/

theorem CompressorMethod.passesWhole (codec : CompressorCodec σ) (p : Platform) :
    PassesWhole (CompressorMethod.observe (p := p) codec) CompressorMethod.keepLock := by
  intro method contents env
  cases method with
  | initializeObject options =>
      simp only [CompressorMethod.observe, CompressorMethod.keepLock, initializeCompressorArguments,
        initializeArguments_keepLock (lzwsExtGetCompressorOptions_ignoresLock _)]
      exact Contents.initializeObject_passes (fun _ _ => rfl) contents env
  | write source => exact Contents.call_passes _ _ source contents env
  | finish => exact Contents.finish_passes _ _ contents env
  | readResult => exact Contents.readResult_passes contents env
  | close => exact Contents.close_passes contents env

theorem DecompressorMethod.passesWhole (codec : DecompressorCodec σ) (p : Platform) :
    PassesWhole (DecompressorMethod.observe (p := p) codec) DecompressorMethod.keepLock := by
  intro method contents env
  cases method with
  | initializeObject options =>
      simp only [DecompressorMethod.observe, DecompressorMethod.keepLock,
        initializeDecompressorArguments,
        initializeArguments_keepLock (lzwsExtGetDecompressorOptions_ignoresLock _)]
      exact Contents.initializeObject_passes (fun _ _ => rfl) contents env
  | read source => exact Contents.call_passes _ _ source contents env
  | readResult => exact Contents.readResult_passes contents env
  | close => exact Contents.close_passes contents env

theorem CompressorMethod.dependsOnContents (codec : CompressorCodec σ) (p : Platform) :
    DependsOnContents (CompressorMethod.observe (p := p) codec) := by
  intro method contents
  cases method with
  | initializeObject options =>
      exact Contents.initializeObject_quiet (fun _ _ quiet => obtainState_quiet quiet _ _) contents
  | write source => exact Contents.call_quiet _ _ source contents
  | finish => exact Contents.finish_quiet _ _ contents
  | readResult => exact Contents.readResult_quiet contents
  | close => exact Contents.close_quiet contents

theorem DecompressorMethod.dependsOnContents (codec : DecompressorCodec σ) (p : Platform) :
    DependsOnContents (DecompressorMethod.observe (p := p) codec) := by
  intro method contents
  cases method with
  | initializeObject options =>
      exact Contents.initializeObject_quiet (fun _ _ quiet => obtainState_quiet quiet _ _) contents
  | read source => exact Contents.call_quiet _ _ source contents
  | readResult => exact Contents.readResult_quiet contents
  | close => exact Contents.close_quiet contents

/-! ## Whole lives -/

/--
What an object shows, next to what it shows with the lock kept: methods that did not run
are left out there, and answers that were lost are given.
-/
inductive Shadows (keepLock : μ → μ) : List μ → List Seen → List μ → List Seen → Prop where
  | nil : Shadows keepLock [] [] [] []
  | ran {method : μ} {seen : Seen} {methods kept : List μ} {shown shownKept : List Seen}
      (rest : Shadows keepLock methods shown kept shownKept) :
      Shadows keepLock (method :: methods) (seen :: shown) (keepLock method :: kept)
        (seen :: shownKept)
  | notRun {method : μ} {methods kept : List μ} {shown shownKept : List Seen}
      (rest : Shadows keepLock methods shown kept shownKept) :
      Shadows keepLock (method :: methods) (.raised .interrupt :: shown) kept shownKept
  | answerLost {method : μ} {seen : Seen} {methods kept : List μ} {shown shownKept : List Seen}
      (rest : Shadows keepLock methods shown kept shownKept) :
      Shadows keepLock (method :: methods) (.raised .interrupt :: shown) (keepLock method :: kept)
        (seen :: shownKept)

section Lives

variable {observe : μ → Contents σ → Environment → Observed σ} {keepLock : μ → μ}

/-- The run lemma: an interrupted life next to one that keeps the lock. -/
theorem observeAll_shadows (whole : PassesWhole observe keepLock)
    (depends : DependsOnContents observe) (methods : List μ) {contents : Contents σ}
    {env quietEnv : Environment} (ample : env.withoutDeliveries.Quiet) (quiet : quietEnv.Quiet) :
    ∃ kept, Shadows keepLock methods (observeAll observe methods contents env).1 kept
        (observeAll observe kept contents.keepLock quietEnv).1 ∧
      (observeAll observe kept contents.keepLock quietEnv).2.1 =
        (observeAll observe methods contents env).2.1.keepLock := by
  induction methods generalizing contents env quietEnv with
  | nil => exact ⟨[], .nil, rfl⟩
  | cons method methods ih =>
      have passes := whole method contents env
      obtain ⟨seen, left, ends⟩ := depends (keepLock method) contents.keepLock
      have locked := ends _ ample
      have other := ends _ quiet
      rw [observeAll]
      generalize observe method contents env = observed at passes ⊢
      cases passes with
      | ran same =>
          rw [same] at locked
          obtain rfl : observed.seen = seen := locked.seen
          obtain rfl : observed.contents.keepLock = left := locked.contents
          obtain ⟨kept, shadows, last⟩ := @ih observed.contents _ _ locked.quiet other.quiet
          refine ⟨keepLock method :: kept, ?_, ?_⟩
          · simp only [observeAll, other.seen, other.contents]
            exact .ran shadows
          · simp only [observeAll, other.contents]
            exact last
      | @notRun after same =>
          rw [← same] at ample
          obtain ⟨kept, shadows, last⟩ := @ih contents _ _ ample quiet
          exact ⟨kept, .notRun shadows, last⟩
      | @answerLost lost after ran same =>
          obtain rfl : lost.keepLock = left := ran.symm.trans locked.contents
          rw [← same] at ample
          obtain ⟨kept, shadows, last⟩ := @ih lost _ _ ample other.quiet
          refine ⟨keepLock method :: kept, ?_, ?_⟩
          · simp only [observeAll, other.contents]
            exact .answerLost shadows
          · simp only [observeAll, other.contents]
            exact last

/-- Where no interrupt is seen, the lock makes no difference, whatever memory does. -/
theorem observeAll_keepLock (whole : PassesWhole observe keepLock) (methods : List μ)
    {contents : Contents σ} {env : Environment}
    (undisturbed : .raised .interrupt ∉ (observeAll observe methods contents env).1) :
    (observeAll observe (methods.map keepLock) contents.keepLock env.withoutDeliveries).1 =
        (observeAll observe methods contents env).1 ∧
      (observeAll observe (methods.map keepLock) contents.keepLock env.withoutDeliveries).2.1 =
        (observeAll observe methods contents env).2.1.keepLock := by
  induction methods generalizing contents env with
  | nil => exact ⟨rfl, rfl⟩
  | cons method methods ih =>
      have passes := whole method contents env
      rw [observeAll] at undisturbed ⊢
      rw [List.map_cons, observeAll]
      generalize observe method contents env = observed at passes undisturbed ⊢
      cases passes with
      | ran same =>
          rw [same]
          obtain ⟨shown, last⟩ := ih fun later => undisturbed (List.mem_cons_of_mem _ later)
          exact ⟨congrArg (observed.seen :: ·) shown, last⟩
      | notRun => exact absurd List.mem_cons_self undisturbed
      | answerLost => exact absurd List.mem_cons_self undisturbed

end Lives

end RubyLzws.Ext
