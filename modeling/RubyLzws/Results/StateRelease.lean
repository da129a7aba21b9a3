import RubyLzws.Ext.StoredCodec
import RubyLzws.Ext.StringTrace

/-!
# Which runs of the string functions release the codec state

The frame that owns the state frees it wherever it gets control back, so a state
is lost just where a long jump takes control away from that frame.
-/

namespace RubyLzws.Results.StateRelease

open Ext

variable {σ τ ε : Type} {p : Platform}

/-- The state that was obtained, if any, has been freed exactly once. -/
def ReleasedOnce (ledger : StateLedger) : Prop :=
  ledger.obtained ≤ 1 ∧ ledger.freed = ledger.obtained

instance (ledger : StateLedger) : Decidable (ReleasedOnce ledger) :=
  inferInstanceAs (Decidable (_ ∧ _))

/-! ## Whole runs -/

/-- The state is released just if every answer that the run got was harmless. -/
def ReleasedIffHarmless (env : Environment) (run : StringRun p) : Prop :=
  ∃ deliveries arrayFailures, Answered env run.environment deliveries arrayFailures ∧
    (ReleasedOnce run.ledger ↔ Harmless deliveries arrayFailures)

theorem ReleasedIffHarmless.of_jumpFree {env : Environment} {run : StringRun p}
    (free : JumpFree env run.environment) (released : ReleasedOnce run.ledger) :
    ReleasedIffHarmless env run := by
  obtain ⟨deliveries, arrayFailures, answered, harmless⟩ := free
  exact ⟨deliveries, arrayFailures, answered, iff_of_true released harmless⟩

/-- The frame that owns the state frees it wherever it gets control back. -/
theorem releaseState_releasedIffHarmless {env : Environment}
    {result : Exit (Buffers σ p) × Environment} (traced : Traced env result) :
    ReleasedIffHarmless env (releaseState StateLedger.empty.acquire result) := by
  rcases result with ⟨exit, after⟩
  cases exit with
  | ok buffers => exact .of_jumpFree traced ⟨Nat.le_refl 1, rfl⟩
  | error code => exact .of_jumpFree traced ⟨Nat.le_refl 1, rfl⟩
  | raised exception =>
      obtain ⟨deliveries, arrayFailures, answered, harmful⟩ := traced
      refine ⟨deliveries, arrayFailures, answered, iff_of_false ?_ harmful⟩
      rintro ⟨_, impossible⟩
      cases impossible

theorem ReleasedIffHarmless.after {before env : Environment} {run : StringRun p}
    (free : JumpFree before env) (released : ReleasedIffHarmless env run) :
    ReleasedIffHarmless before run := by
  obtain ⟨_, _, answered, harmless⟩ := free
  obtain ⟨_, _, answered', iff⟩ := released
  refine ⟨_, _, answered.trans answered', iff.trans ?_⟩
  rw [Harmless.append_iff]
  exact (and_iff_right harmless).symm

/-- The common text of both functions. -/
theorem stringFunction_releasedIffHarmless {ω : Type}
    {arguments : Except Raised (RString p × Nat × Bool × ω)} {initial : ω → Except ε σ}
    {failure : ε} {errorOf : ε → Raised} {defaultDestinationBufferLength : Nat}
    {work : σ → List Byte → RString p → Nat → Bool → Environment →
      Option (Exit (Buffers σ p) × Environment)} {env : Environment}
    (works : ∀ {state source destinationValue length gvl env result},
      work state source destinationValue length gvl env = some result → Traced env result)
    {run : StringRun p}
    (executed : stringFunction arguments
      (fun options => obtainState failure (initial options)) errorOf
      defaultDestinationBufferLength work env = some run) :
    ReleasedIffHarmless env run := by
  unfold stringFunction at executed
  split at executed
  · cases executed
    exact .of_jumpFree (.of_same rfl rfl) ⟨Nat.zero_le 1, rfl⟩
  · split at executed
    · next code after obtained =>
        cases executed
        exact .of_jumpFree (obtainState_jumpFree obtained) ⟨Nat.zero_le 1, rfl⟩
    · next state middle obtained =>
        apply ReleasedIffHarmless.after (obtainState_jumpFree obtained)
        dsimp only at executed
        split at executed
        · next after created =>
            cases executed
            exact .of_jumpFree (lzwsExtCreateStringBuffer_jumpFree created)
              ⟨Nat.le_refl 1, rfl⟩
        · next destinationValue after created =>
            apply ReleasedIffHarmless.after (lzwsExtCreateStringBuffer_jumpFree created)
            obtain ⟨result, returned, rfl⟩ := Option.map_eq_some_iff.mp executed
            exact releaseState_releasedIffHarmless (works returned)

/-! ## With the lock kept -/

/-- The `gvl` of the options asks for the lock, or the platform cannot release it. -/
def LockKept (options : Argument p) : Prop :=
  ∃ entries gvl, options = .hash entries ∧ lzwsExtGetBoolOptionValue entries .gvl = .ok gvl ∧
    KeepsLock p gvl

theorem stringArguments_locked {ω : Type} {getOptions : Hash p → Except Raised ω}
    {sourceValue : Value p} {options : Argument p} (kept : LockKept options)
    {source : RString p} {length : Nat} {gvl : Bool} {codecOptions : ω}
    (resolved : stringArguments getOptions sourceValue options =
      .ok (source, length, gvl, codecOptions)) : KeepsLock p gvl := by
  obtain ⟨entries, asked, rfl, found, keeps⟩ := kept
  obtain ⟨_, _, resolved⟩ := bind_eq_ok.mp resolved
  obtain ⟨_, hash, resolved⟩ := bind_eq_ok.mp resolved
  cases hash
  obtain ⟨_, _, resolved⟩ := bind_eq_ok.mp resolved
  obtain ⟨_, same, resolved⟩ := bind_eq_ok.mp resolved
  cases found.symm.trans same
  obtain ⟨_, _, resolved⟩ := bind_eq_ok.mp resolved
  cases resolved
  exact keeps

theorem releaseState_environment (ledger : StateLedger) (exit : Exit (Buffers σ p))
    (env : Environment) : (releaseState ledger (exit, env)).environment = env := by
  cases exit with
  | ok buffers => rfl
  | error code => rfl
  | raised exception => rfl

/-- The common text of both functions asks for no interrupt either. -/
theorem stringFunction_deliveries {ω : Type}
    {arguments : Except Raised (RString p × Nat × Bool × ω)} {initial : ω → Except ε σ}
    {failure : ε} {errorOf : ε → Raised} {defaultDestinationBufferLength : Nat}
    {work : σ → List Byte → RString p → Nat → Bool → Environment →
      Option (Exit (Buffers σ p) × Environment)} {env : Environment}
    (locked : ∀ {source length gvl options}, arguments = .ok (source, length, gvl, options) →
      KeepsLock p gvl)
    (works : ∀ {state source destinationValue length gvl env exit after}, KeepsLock p gvl →
      work state source destinationValue length gvl env = some (exit, after) →
        after.deliveries = env.deliveries)
    {run : StringRun p}
    (executed : stringFunction arguments
      (fun options => obtainState failure (initial options)) errorOf
      defaultDestinationBufferLength work env = some run) :
    run.environment.deliveries = env.deliveries := by
  unfold stringFunction at executed
  split at executed
  · cases executed
    rfl
  · next source length gvl options =>
      have keeps : KeepsLock p gvl := locked rfl
      split at executed
      · next code after obtained =>
          cases executed
          exact obtainState_deliveries obtained
      · next state middle obtained =>
          dsimp only at executed
          split at executed
          · next after created =>
              cases executed
              exact (lzwsExtCreateStringBuffer_deliveries created).trans
                (obtainState_deliveries obtained)
          · next destinationValue after created =>
              obtain ⟨⟨exit, last⟩, returned, rfl⟩ := Option.map_eq_some_iff.mp executed
              rw [releaseState_environment]
              exact ((works keeps returned).trans
                (lzwsExtCreateStringBuffer_deliveries created)).trans
                  (obtainState_deliveries obtained)

/--
**When the string functions release the codec state.**  However a run ends, the
state it obtained has been freed exactly once just if no interrupt was delivered
while the lock was released and no argument array lacked memory; and that is so
in every run from surroundings that list neither.  With the lock kept no interrupt
is asked for, and the arrays alone decide.
-/
theorem string_state_released_iff_jumpFree (compressor : CompressorCodec σ)
    (decompressor : DecompressorCodec τ) (fuel : Nat) (sourceValue : Value p)
    (options : Argument p) (env : Environment) (run : StringRun p)
    (executed : lzwsExtCompressString compressor fuel sourceValue options env = some run ∨
      lzwsExtDecompressString decompressor fuel sourceValue options env = some run) :
    (∃ deliveries arrayFailures, Answered env run.environment deliveries arrayFailures ∧
      (ReleasedOnce run.ledger ↔ Harmless deliveries arrayFailures)) ∧
    (Harmless env.deliveries env.arrayFailures → ReleasedOnce run.ledger) ∧
    (LockKept options → ∃ arrayFailures, Answered env run.environment [] arrayFailures ∧
      (ReleasedOnce run.ledger ↔ ∀ raises ∈ arrayFailures, raises = false)) := by
  have released : ReleasedIffHarmless env run := by
    rcases executed with compressed | decompressed
    · exact stringFunction_releasedIffHarmless compress_traced compressed
    · exact stringFunction_releasedIffHarmless decompress_traced decompressed
  refine ⟨released, ?_, ?_⟩
  · intro harmless
    obtain ⟨deliveries, arrayFailures, answered, iff⟩ := released
    rw [answered.deliveries, answered.arrayFailures] at harmless
    exact iff.mpr (Harmless.append_iff.mp harmless).1
  · intro kept
    have same : run.environment.deliveries = env.deliveries := by
      rcases executed with compressed | decompressed
      · exact stringFunction_deliveries (stringArguments_locked kept) compress_deliveries
          compressed
      · exact stringFunction_deliveries (stringArguments_locked kept) decompress_deliveries
          decompressed
    obtain ⟨deliveries, arrayFailures, answered, iff⟩ := released
    obtain rfl : deliveries = [] := by
      have answers := answered.deliveries
      rw [same] at answers
      exact List.self_eq_append_left.mp answers
    refine ⟨arrayFailures, answered, iff.trans ?_⟩
    exact ⟨Harmless.arrayFailures, fun calm => ⟨by simp, calm⟩⟩

/-- An archive made without the lock, in surroundings where nothing happens. -/
theorem string_state_released_iff_jumpFree_calm :
    ∃ run, lzwsExtCompressString (p := .linux64) StoredCodec.compressor 4
        (.string (.ofBytes [])) (.hash (StoredCodec.options .linux64 2 false))
        .calm = some run ∧
      ReleasedOnce run.ledger := by
  have found : (lzwsExtCompressString (p := .linux64) StoredCodec.compressor 4
      (.string (.ofBytes [])) (.hash (StoredCodec.options .linux64 2 false))
      .calm).isSome = true := by
    decide +kernel
  obtain ⟨run, executed⟩ := Option.isSome_iff_exists.mp found
  refine ⟨run, executed, ?_⟩
  exact (string_state_released_iff_jumpFree StoredCodec.compressor StoredCodec.decompressor
    4 _ _ .calm run (.inl executed)).2.1 .nil

/-- What a run raised, if anything. -/
def raisedBy (run : StringRun p) : Option Raised :=
  match run.outcome with
  | .error exception => some exception
  | .ok _ => none

/--
An interrupt that arrives during the second call of the codec, and an argument
array without memory: each leaves a state behind.
-/
theorem interrupted_compress_leaks_state :
    (∃ run, lzwsExtCompressString (p := .linux64) StoredCodec.compressor 4
        (.string (.ofBytes [])) (.hash (StoredCodec.options .linux64 2 false))
        { Environment.calm with deliveries := [.nothing, .after] } = some run ∧
      raisedBy run = some .interrupt ∧ ¬ ReleasedOnce run.ledger) ∧
    ∃ run, lzwsExtDecompressString (p := .linux64) StoredCodec.decompressor 4
        (.string (.ofBytes [0x1f, 0x9d, 0x90, 7]))
        (.hash (StoredCodec.options .linux64 2 true))
        { Environment.calm with arrayFailures := [true] } = some run ∧
      raisedBy run = some .noMemoryError ∧ ¬ ReleasedOnce run.ledger := by
  constructor
  · have found : ((lzwsExtCompressString (p := .linux64) StoredCodec.compressor 4
        (.string (.ofBytes [])) (.hash (StoredCodec.options .linux64 2 false))
        { Environment.calm with deliveries := [.nothing, .after] }).map fun run =>
          (raisedBy run, run.ledger)) = some (some .interrupt, ⟨1, 0⟩) := by
      decide +kernel
    obtain ⟨run, executed, read⟩ := Option.map_eq_some_iff.mp found
    obtain ⟨raised, ledger⟩ := Prod.mk.inj read
    refine ⟨run, executed, raised, ?_⟩
    rw [ledger]
    decide
  · have found : ((lzwsExtDecompressString (p := .linux64) StoredCodec.decompressor 4
        (.string (.ofBytes [0x1f, 0x9d, 0x90, 7]))
        (.hash (StoredCodec.options .linux64 2 true))
        { Environment.calm with arrayFailures := [true] }).map fun run =>
          (raisedBy run, run.ledger)) = some (some .noMemoryError, ⟨1, 0⟩) := by
      decide +kernel
    obtain ⟨run, executed, read⟩ := Option.map_eq_some_iff.mp found
    obtain ⟨raised, ledger⟩ := Prod.mk.inj read
    refine ⟨run, executed, raised, ?_⟩
    rw [ledger]
    decide

end RubyLzws.Results.StateRelease
