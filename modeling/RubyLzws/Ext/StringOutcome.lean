import RubyLzws.Ext.StringTrace

/-!
# How the exported string functions end

The spec lemmas of `compress` and `decompress`, carried through the argument
checks and the frames that own the state: what a run returned or raised, and what
the codec did for it.
-/

namespace RubyLzws.Ext

open Library.Transducer

variable {σ ε : Type} {p : Platform}

/-- What the frame around `compress` or `decompress` makes of their exit. -/
def Exit.outcome : Exit (Buffers σ p) → Except Raised (RString p)
  | .ok buffers => .ok buffers.destinationValue
  | .error code => .error (lzwsExtRaiseError code)
  | .raised exception => .error exception

theorem releaseState_outcome (ledger : StateLedger)
    (result : Exit (Buffers σ p) × Environment) :
    (releaseState ledger result).outcome = result.1.outcome := by
  rcases result with ⟨exit, env⟩
  cases exit <;> rfl

/-- The created string has the length asked for. -/
theorem lzwsExtCreateStringBuffer_length {length : Nat} {env after : Environment}
    {buffer : RString p} (created : lzwsExtCreateStringBuffer length env = (some buffer, after)) :
    buffer.length = length := by
  unfold lzwsExtCreateStringBuffer at created
  by_cases fits : env.nextStringFailure.1 = false ∧ length ≤ p.maxStringLength
  · simp only [fits, and_self, ↓reduceDIte] at created
    cases created
    exact RString.resize_length _ _ _ fits.2
  · simp only [fits, ↓reduceDIte] at created
    cases created

/-- A state is handed out as `initial` says, unless memory for it lacks. -/
theorem obtainState_result {failure : ε} {initial : Except ε σ} {env after : Environment}
    {result : Except ε σ} (obtained : obtainState failure initial env = (result, after)) :
    result = initial ∨ result = .error failure := by
  cases obtained
  split
  · exact .inr rfl
  · exact .inl rfl

/-! ## The common text -/

/-- The ways in which a run of a string function ends; `Work` relates `work` to its exit. -/
inductive StringFunctionResult {ω : Type}
    (arguments : Except Raised (RString p × Nat × Bool × ω)) (initial : ω → Except ε σ)
    (errorOf : ε → Raised) (defaultDestinationBufferLength : Nat)
    (Work : Nat → σ → List Byte → Exit (Buffers σ p) → Prop) (env : Environment) :
    Except Raised (RString p) → Prop where
  | refused {exception : Raised} (refused : arguments = .error exception) :
      StringFunctionResult arguments initial errorOf defaultDestinationBufferLength Work env
        (.error exception)
  | noState {source : RString p} {length : Nat} {gvl : Bool} {options : ω} {code : ε}
      (resolved : arguments = .ok (source, length, gvl, options))
      (failed : initial options = .error code) :
      StringFunctionResult arguments initial errorOf defaultDestinationBufferLength Work env
        (.error (errorOf code))
  | noMemory :
      StringFunctionResult arguments initial errorOf defaultDestinationBufferLength Work env
        (.error (lzwsExtRaiseError .allocateFailed))
  | ended {source : RString p} {length : Nat} {gvl : Bool} {options : ω} {state : σ}
      {exit : Exit (Buffers σ p)}
      (resolved : arguments = .ok (source, length, gvl, options))
      (started : initial options = .ok state)
      (result : Work (if length = 0 then defaultDestinationBufferLength else length) state
        source.bytes exit)
      (calm : env.Quiet → ∀ exception, exit ≠ .raised exception) :
      StringFunctionResult arguments initial errorOf defaultDestinationBufferLength Work env
        exit.outcome

section Common

variable {ω : Type} {arguments : Except Raised (RString p × Nat × Bool × ω)}
  {initial : ω → Except ε σ} {failure : ε} {errorOf : ε → Raised}
  {defaultDestinationBufferLength : Nat}
  {work : σ → List Byte → RString p → Nat → Bool → Environment →
    Option (Exit (Buffers σ p) × Environment)} {env : Environment}

theorem stringFunction_result {Work : Nat → σ → List Byte → Exit (Buffers σ p) → Prop}
    (lacking : errorOf failure = lzwsExtRaiseError .allocateFailed)
    (works : ∀ {state source destinationValue gvl env exit after},
      work state source destinationValue destinationValue.length gvl env = some (exit, after) →
      Work destinationValue.length state source exit ∧ Traced env (exit, after))
    {run : StringRun p}
    (executed : stringFunction arguments
      (fun options => obtainState failure (initial options)) errorOf
      defaultDestinationBufferLength work env = some run) :
    StringFunctionResult arguments initial errorOf defaultDestinationBufferLength Work env
      run.outcome := by
  unfold stringFunction at executed
  split at executed
  · cases executed
    exact .refused rfl
  · next source length gvl options =>
      split at executed
      · next code after obtained =>
          cases executed
          rcases obtainState_result obtained with same | failed
          · exact .noState rfl same.symm
          · cases failed
            rw [lacking]
            exact .noMemory
      · next state middle obtained =>
          have started : initial options = .ok state := by
            rcases obtainState_result obtained with same | failed
            · exact same.symm
            · cases failed
          dsimp only at executed
          split at executed
          · cases executed
            exact .noMemory
          · next destinationValue after created =>
              obtain ⟨⟨exit, last⟩, returned, rfl⟩ := Option.map_eq_some_iff.mp executed
              rw [← lzwsExtCreateStringBuffer_length created] at returned
              obtain ⟨result, traced⟩ := works returned
              rw [lzwsExtCreateStringBuffer_length created] at result
              have whole : Traced env (exit, last) := ((obtainState_jumpFree obtained).trans
                (lzwsExtCreateStringBuffer_jumpFree created)).traced traced
              rw [releaseState_outcome]
              exact .ended rfl started result whole.not_raised

end Common

/-! ## The exported functions -/

/-- The ways in which a run of `lzws_ext_compress_string` ends. -/
abbrev CompressStringResult (codec : CompressorCodec σ) (sourceValue : Value p)
    (options : Argument p) : Environment → Except Raised (RString p) → Prop :=
  StringFunctionResult (compressStringArguments codec sourceValue options) codec.getInitialState
    compressorInitialStateError codec.defaultDestinationBufferLength (CompressResult codec)

/-- **Every way out of `lzws_ext_compress_string`.** -/
theorem lzwsExtCompressString_result {codec : CompressorCodec σ}
    (law : ConsumesAll codec.compress) {fuel : Nat} {sourceValue : Value p}
    {options : Argument p} {env : Environment} {run : StringRun p}
    (executed : lzwsExtCompressString codec fuel sourceValue options env = some run) :
    CompressStringResult codec sourceValue options env run.outcome := by
  apply stringFunction_result _ _ executed
  · rfl
  · exact fun returned => ⟨compress_result law returned, compress_traced returned⟩

/-- The ways in which a run of `lzws_ext_decompress_string` ends. -/
abbrev DecompressStringResult (codec : DecompressorCodec σ) (sourceValue : Value p)
    (options : Argument p) : Environment → Except Raised (RString p) → Prop :=
  StringFunctionResult (decompressStringArguments codec sourceValue options)
    codec.getInitialState decompressorInitialStateError codec.defaultDestinationBufferLength
    (DecompressResult codec)

/-- **Every way out of `lzws_ext_decompress_string`.** -/
theorem lzwsExtDecompressString_result {codec : DecompressorCodec σ} {fuel : Nat}
    {sourceValue : Value p} {options : Argument p} {env : Environment} {run : StringRun p}
    (executed : lzwsExtDecompressString codec fuel sourceValue options env = some run) :
    DecompressStringResult codec sourceValue options env run.outcome := by
  apply stringFunction_result _ _ executed
  · rfl
  · exact fun returned => ⟨decompress_result returned, decompress_traced returned⟩

/-- **`lzws_ext_decompress_string` ends, whatever the codec answers.** -/
theorem lzwsExtDecompressString_returns (codec : DecompressorCodec σ) (sourceValue : Value p)
    (options : Argument p) (env : Environment) :
    ∃ fuel run, lzwsExtDecompressString codec fuel sourceValue options env = some run := by
  unfold lzwsExtDecompressString stringFunction
  split
  · exact ⟨0, _, rfl⟩
  · next source length gvl decompressorOptions resolved =>
      split
      · exact ⟨0, _, rfl⟩
      · next state middle obtained =>
          dsimp only
          split
          · exact ⟨0, _, rfl⟩
          · next destinationValue after created =>
              obtain ⟨fuel, result, returned⟩ : ∃ fuel result, decompress codec fuel state
                  source.bytes destinationValue destinationValue.length gvl after = some result :=
                decompress_returns state source.bytes destinationValue gvl after
              rw [lzwsExtCreateStringBuffer_length created] at returned
              exact ⟨fuel, _, Option.map_eq_some_iff.mpr ⟨result, returned, rfl⟩⟩

end RubyLzws.Ext
