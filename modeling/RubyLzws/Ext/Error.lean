import Mathlib.Tactic.Common

/-!
# Errors of the extension

`error.h` numbers the results that the C functions return; `error.c` turns such
a result into a Ruby exception.  Exceptions of Ruby itself that can leave the
modelled functions stand next to them.
-/

namespace RubyLzws.Ext

/-- The results `LZWS_EXT_ERROR_*` of `error.h`, in their order. -/
inductive ExtError where
  | allocateFailed
  | validateFailed
  | usedAfterClose
  | notEnoughSourceBuffer
  | notEnoughDestinationBuffer
  | decompressorCorruptedSource
  | accessIo
  | readIo
  | writeIo
  | unexpected
  deriving DecidableEq, Repr

/-- The exception classes of the module `LZWS` that `error.c` looks up. -/
inductive ErrorClass where
  | allocateError
  | validateError
  | usedAfterCloseError
  | notEnoughSourceBufferError
  | notEnoughDestinationBufferError
  | decompressorCorruptedSourceError
  | accessIOError
  | readIOError
  | writeIOError
  | unexpectedError
  deriving DecidableEq, Repr

/-- The exceptions that can leave a modelled function. -/
inductive Raised where
  | lzws (errorClass : ErrorClass) (description : String)
  | typeError
  | rangeError
  | ioError
  | noMemoryError
  /-- `Thread#raise`, `Thread#kill`, `Timeout` or a raising trap handler. -/
  | interrupt
  deriving DecidableEq, Repr

/-- `lzws_ext_raise_error` -/
def lzwsExtRaiseError : ExtError → Raised
  | .allocateFailed => .lzws .allocateError "allocate error"
  | .validateFailed => .lzws .validateError "validate error"
  | .usedAfterClose => .lzws .usedAfterCloseError "used after closed"
  | .notEnoughSourceBuffer => .lzws .notEnoughSourceBufferError "not enough source buffer"
  | .notEnoughDestinationBuffer =>
      .lzws .notEnoughDestinationBufferError "not enough destination buffer"
  | .decompressorCorruptedSource =>
      .lzws .decompressorCorruptedSourceError "decompressor received corrupted source"
  | .accessIo => .lzws .accessIOError "failed to access IO"
  | .readIo => .lzws .readIOError "failed to read IO"
  | .writeIo => .lzws .writeIOError "failed to write IO"
  | .unexpected => .lzws .unexpectedError "unexpected error"

/-- Different results are different exceptions. -/
theorem lzwsExtRaiseError_injective : Function.Injective lzwsExtRaiseError := by
  intro left right same
  cases left <;> cases right <;> first | rfl | simp [lzwsExtRaiseError] at same

/-- A check that passes is followed by the rest. -/
theorem bind_eq_ok {α β : Type} {check : Except Raised α} {rest : α → Except Raised β}
    {result : β} :
    (check >>= rest) = .ok result ↔ ∃ value, check = .ok value ∧ rest value = .ok result := by
  cases check with
  | error exception =>
      constructor
      · intro impossible
        cases impossible
      · rintro ⟨_, impossible, _⟩
        cases impossible
  | ok value =>
      constructor
      · exact fun passed => ⟨value, rfl, passed⟩
      · rintro ⟨_, same, passed⟩
        cases same
        exact passed

/-- Reading a value means that nothing was raised. -/
theorem ok_of_toOption {α : Type} {outcome : Except Raised α} {value : α}
    (read : outcome.toOption = some value) : outcome = .ok value := by
  cases outcome with
  | error exception => cases read
  | ok other =>
      cases read
      rfl

/-- An exception that comes from the surroundings, not from what the code found. -/
def Raised.FromEnvironment (exception : Raised) : Prop :=
  exception = .interrupt ∨ exception = .noMemoryError

theorem lzwsExtRaiseError_not_fromEnvironment (code : ExtError) :
    ¬ (lzwsExtRaiseError code).FromEnvironment := by
  rintro (same | same) <;> cases code <;> cases same

end RubyLzws.Ext
