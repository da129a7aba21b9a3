import RubyLzws.Lib.Option

/-!
# What the option validation accepts

`Option.get_compressor_options` and its sibling accept a hash just if every option has a
value of its kind, raise nothing but a `ValidateError`, and leave a hash that they returned
as it is.
-/

namespace RubyLzws.Results.OptionValidation

open Ext Lib

variable {p : Platform} {α : Type}

/-- `ValidateError` with some message. -/
def IsValidateError (exception : Raised) : Prop := ∃ message, exception = validateError message

/-- What ADSP documents of its validators: they raise a `ValidateError` or nothing. -/
structure RaisesValidateErrors (validation : Validation p) : Prop where
  validateHash : ∀ argument exception, validation.validateHash argument = .error exception →
    IsValidateError exception
  validateNotNegativeInteger : ∀ value exception,
    validation.validateNotNegativeInteger value = .error exception → IsValidateError exception
  validatePositiveInteger : ∀ value exception,
    validation.validatePositiveInteger value = .error exception → IsValidateError exception

/-- A check that returns just what it accepts, and raises a `ValidateError` otherwise. -/
structure Decides (check : Except Raised α) (accepts : α → Prop) : Prop where
  ok_iff : ∀ value, check = .ok value ↔ accepts value
  raises : ∀ exception, check = .error exception → IsValidateError exception

theorem Decides.pure (value : α) : Decides (.ok value) (· = value) := by
  constructor
  · intro other
    exact ⟨fun same => (Except.ok.inj same).symm, fun same => congrArg Except.ok same.symm⟩
  · intro exception impossible
    cases impossible

/-- One check after another. -/
theorem Decides.bind {first : Except Raised Unit} {rest : Except Raised α} {accepts : Prop}
    {others : α → Prop} (left : Decides first fun _ => accepts)
    (right : accepts → Decides rest others) :
    Decides (first >>= fun _ => rest) fun value => accepts ∧ others value := by
  cases checked : first with
  | ok value =>
      have accepted : accepts := (left.ok_iff ()).mp checked
      constructor
      · intro value
        exact ((right accepted).ok_iff value).trans (and_iff_right accepted).symm
      · exact (right accepted).raises
  | error exception =>
      have refused : ¬ accepts := by
        intro accepted
        rw [(left.ok_iff ()).mpr accepted] at checked
        cases checked
      constructor
      · intro value
        exact iff_of_false (fun impossible => by cases impossible) fun both => refused both.1
      · intro other same
        cases same
        exact left.raises exception checked

/-! ## Single options -/

theorem validateBool_decides (value : Value p) :
    Decides (validateBool value) fun _ => value.IsFlag ∧ value ≠ .nil := by
  constructor
  · exact fun _ => validateBool_ok
  · intro exception refused
    cases value with
    | true => cases refused
    | false => cases refused
    | _ =>
        cases refused
        exact ⟨_, rfl⟩

theorem check_of_unlessNil {value : Value p} {check : Value p → Except Raised Unit}
    {exception : Raised} (refused : unlessNil value check = .error exception) :
    check value = .error exception := by
  cases value with
  | nil => cases refused
  | _ => exact refused

/-- An optional flag. -/
theorem flag_decides (value : Value p) :
    Decides (unlessNil value validateBool) fun _ => value.IsFlag := by
  constructor
  · exact fun _ => unlessNil_validateBool_ok
  · intro exception refused
    exact (validateBool_decides value).raises exception (check_of_unlessNil refused)

section Validators

variable {validation : Validation p}

theorem validateBufferLengths_decides (raises : RaisesValidateErrors validation)
    (options : Hash p) (names : List OptionName) :
    Decides (validateBufferLengths validation options names) fun _ =>
      ∀ name ∈ names, ∃ number : Nat, options.get name = .integer number := by
  induction names with
  | nil =>
      constructor
      · intro _
        refine iff_of_true rfl fun name impossible => ?_
        cases impossible
      · intro exception impossible
        cases impossible
  | cons first rest ih =>
      have checked : Decides (validation.validateNotNegativeInteger (options.get first))
          fun _ => ∃ number : Nat, options.get first = .integer number :=
        ⟨fun _ => validation.validateNotNegativeInteger_ok _,
          raises.validateNotNegativeInteger _⟩
      have both := checked.bind fun _ => ih
      constructor
      · intro value
        rw [List.forall_mem_cons]
        exact both.ok_iff value
      · exact both.raises

theorem maxCodeBitLength_decides (raises : RaisesValidateErrors validation) (value : Value p) :
    Decides (unlessNil value (validateMaxCodeBitLength validation)) fun _ =>
      value.IsCodeBitLength := by
  constructor
  · intro _
    refine ⟨validateMaxCodeBitLength_ok, fun inRange => ?_⟩
    cases inRange with
    | nil => rfl
    | @integer number lowest biggest =>
        have positive : validation.validatePositiveInteger (.integer number) = .ok () :=
          (validation.validatePositiveInteger_ok _).mpr ⟨number, by omega, rfl⟩
        have inside : ¬ ((number : Int) < lowestMaxCodeBitLength ∨
            (number : Int) > biggestMaxCodeBitLength) := by
          have low : lowestMaxCodeBitLength = 9 := rfl
          have big : biggestMaxCodeBitLength = 16 := rfl
          omega
        simp only [unlessNil, validateMaxCodeBitLength, positive, inside, ↓reduceIte]
        rfl
  · intro exception refused
    have checked := check_of_unlessNil refused
    unfold validateMaxCodeBitLength at checked
    cases positive : validation.validatePositiveInteger value with
    | error other =>
        rw [positive] at checked
        cases checked
        exact raises.validatePositiveInteger value exception positive
    | ok passed =>
        -- A positive Integer is compared with the bounds.
        obtain ⟨number, _, rfl⟩ := (validation.validatePositiveInteger_ok value).mp positive
        rw [positive] at checked
        change (if (number : Int) < lowestMaxCodeBitLength ∨
          (number : Int) > biggestMaxCodeBitLength then
            Except.error (validateError "invalid max code bit length") else .ok ()) = _ at checked
        split at checked
        · cases checked
          exact ⟨_, rfl⟩
        · cases checked

/-! ## Whole hashes -/

/-- The hash that an argument is, if the validation of hashes lets it through. -/
theorem hash_decides (raises : RaisesValidateErrors validation) (options : Argument p)
    {rest : Hash p → Except Raised (Hash p)} {accepts : Hash p → Hash p → Prop}
    (decides : ∀ given, Decides (rest given) (accepts given)) :
    Decides (do
        validation.validateHash options
        let given ← checkHash options
        rest given)
      fun returned => ∃ given, options = .hash given ∧ accepts given returned := by
  cases options with
  | hash given =>
      have passed : validation.validateHash (.hash given) = .ok () :=
        (validation.validateHash_ok _).mpr ⟨given, rfl⟩
      rw [passed]
      constructor
      · intro returned
        refine ((decides given).ok_iff returned).trans ?_
        constructor
        · exact fun accepted => ⟨given, rfl, accepted⟩
        · rintro ⟨_, same, accepted⟩
          cases same
          exact accepted
      · exact (decides given).raises
  | notHash =>
      cases refused : validation.validateHash .notHash with
      | ok passed =>
          obtain ⟨_, impossible⟩ := (validation.validateHash_ok _).mp refused
          cases impossible
      | error exception =>
          constructor
          · intro returned
            refine iff_of_false (fun impossible => by cases impossible) ?_
            rintro ⟨_, impossible, _⟩
            cases impossible
          · intro other same
            cases same
            exact raises.validateHash _ _ refused

theorem getCompressorOptions_decides (raises : RaisesValidateErrors validation)
    (options : Argument p) (names : List OptionName) :
    Decides (getCompressorOptions validation options names) fun returned =>
      Accepted compressorDefaults names options returned ∧ returned.CompressorValid := by
  have checks := fun merged : Hash p =>
    (validateBufferLengths_decides raises merged names).bind fun _ =>
    (validateBool_decides (merged.get .gvl)).bind fun _ =>
    (maxCodeBitLength_decides raises (merged.get .maxCodeBitLength)).bind fun _ =>
    (flag_decides (merged.get .withoutMagicHeader)).bind fun _ =>
    (flag_decides (merged.get .blockMode)).bind fun _ =>
    (flag_decides (merged.get .msb)).bind fun _ =>
    (flag_decides (merged.get .unalignedBitGroups)).bind fun _ =>
    (flag_decides (merged.get .quiet)).bind fun _ => Decides.pure merged
  have decides := hash_decides raises options fun given =>
    checks (mergedOptions compressorDefaults names given)
  refine ⟨fun returned => (decides.ok_iff returned).trans ?_, decides.raises⟩
  constructor
  · rintro ⟨given, same, lengths, gvl, maxCodeBitLength, withoutMagicHeader, blockMode, msb,
      unalignedBitGroups, quiet, rfl⟩
    have flags : (mergedOptions compressorDefaults names given).FlagsValid :=
      ⟨withoutMagicHeader, msb, unalignedBitGroups, quiet⟩
    exact ⟨⟨⟨given, same, rfl⟩, lengths, gvl, flags⟩, flags, maxCodeBitLength, blockMode⟩
  · rintro ⟨⟨⟨given, same, rfl⟩, lengths, gvl, flags⟩, valid⟩
    exact ⟨given, same, lengths, gvl, valid.maxCodeBitLength, flags.withoutMagicHeader,
      valid.blockMode, flags.msb, flags.unalignedBitGroups, flags.quiet, rfl⟩

theorem getDecompressorOptions_decides (raises : RaisesValidateErrors validation)
    (options : Argument p) (names : List OptionName) :
    Decides (getDecompressorOptions validation options names) fun returned =>
      Accepted decompressorDefaults names options returned := by
  have checks := fun merged : Hash p =>
    (validateBufferLengths_decides raises merged names).bind fun _ =>
    (validateBool_decides (merged.get .gvl)).bind fun _ =>
    (flag_decides (merged.get .withoutMagicHeader)).bind fun _ =>
    (flag_decides (merged.get .msb)).bind fun _ =>
    (flag_decides (merged.get .unalignedBitGroups)).bind fun _ =>
    (flag_decides (merged.get .quiet)).bind fun _ => Decides.pure merged
  have decides := hash_decides raises options fun given =>
    checks (mergedOptions decompressorDefaults names given)
  refine ⟨fun returned => (decides.ok_iff returned).trans ?_, decides.raises⟩
  constructor
  · rintro ⟨given, same, lengths, gvl, withoutMagicHeader, msb, unalignedBitGroups, quiet, rfl⟩
    exact ⟨⟨given, same, rfl⟩, lengths, gvl, withoutMagicHeader, msb, unalignedBitGroups, quiet⟩
  · rintro ⟨⟨given, same, rfl⟩, lengths, gvl, flags⟩
    exact ⟨given, same, lengths, gvl, flags.withoutMagicHeader, flags.msb,
      flags.unalignedBitGroups, flags.quiet, rfl⟩

end Validators

/-- A validation of options that decides, and that returns what it returned once more. -/
structure Exact (validate : Argument p → Except Raised (Hash p))
    (accepts : Argument p → Hash p → Prop) : Prop where
  decides : ∀ options, Decides (validate options) (accepts options)
  again : ∀ options returned, validate options = .ok returned →
    validate (.hash returned) = .ok returned

/--
**The validation of options is exact.**  For every argument and every list of buffer
lengths, both functions return the merged hash just if all its options have values of their
kinds, raise a `ValidateError` otherwise, and leave a hash that they returned as it is.
-/
theorem option_validation_exact (validation : Validation p)
    (raises : RaisesValidateErrors validation) (names : List OptionName) :
    Exact (getCompressorOptions validation · names) (fun options returned =>
        Accepted compressorDefaults names options returned ∧ returned.CompressorValid) ∧
      Exact (getDecompressorOptions validation · names) fun options returned =>
        Accepted decompressorDefaults names options returned := by
  constructor
  · refine ⟨fun options => getCompressorOptions_decides raises options names, ?_⟩
    intro options returned checked
    obtain ⟨accepted, valid⟩ := getCompressorOptions_accepted checked
    exact ((getCompressorOptions_decides raises _ names).ok_iff returned).mpr
      ⟨accepted.again, valid⟩
  · refine ⟨fun options => getDecompressorOptions_decides raises options names, ?_⟩
    intro options returned checked
    have accepted := getDecompressorOptions_accepted checked
    exact ((getDecompressorOptions_decides raises _ names).ok_iff returned).mpr accepted.again

/-! ## The documented validators -/

theorem documentedValidation_raises (p : Platform) :
    RaisesValidateErrors (documentedValidation p) := by
  constructor
  · intro argument exception refused
    cases argument with
    | hash entries => cases refused
    | notHash =>
        cases refused
        exact ⟨_, rfl⟩
  · intro value exception refused
    change documentedValidateNotNegativeInteger value = _ at refused
    unfold documentedValidateNotNegativeInteger at refused
    split at refused
    · split at refused
      · cases refused
      · cases refused
        exact ⟨_, rfl⟩
    · cases refused
      exact ⟨_, rfl⟩
  · intro value exception refused
    change documentedValidatePositiveInteger value = _ at refused
    unfold documentedValidatePositiveInteger at refused
    split at refused
    · split at refused
      · cases refused
      · cases refused
        exact ⟨_, rfl⟩
    · cases refused
      exact ⟨_, rfl⟩

/-- `{ :max_code_bit_length => number }` -/
def codeBitLengthOnly (p : Platform) (number : Int) : Hash p
  | .maxCodeBitLength => some (.integer number)
  | _ => none

/-- A code of 16 bits is accepted, twice over; one of 17 bits is a `ValidateError`. -/
theorem option_validation_exact_bounds :
    (∃ returned, getCompressorOptions (documentedValidation .linux64)
          (.hash (codeBitLengthOnly .linux64 16)) [.destinationBufferLength] = .ok returned ∧
        getCompressorOptions (documentedValidation .linux64) (.hash returned)
          [.destinationBufferLength] = .ok returned) ∧
      ∃ exception, getCompressorOptions (documentedValidation .linux64)
          (.hash (codeBitLengthOnly .linux64 17)) [.destinationBufferLength] = .error exception ∧
        IsValidateError exception := by
  have exact := (option_validation_exact (documentedValidation .linux64)
    (documentedValidation_raises .linux64) [.destinationBufferLength]).1
  refine ⟨⟨_, rfl, ?_⟩, ⟨_, rfl, ?_⟩⟩
  · exact exact.again (.hash (codeBitLengthOnly .linux64 16)) _ rfl
  · exact (exact.decides (.hash (codeBitLengthOnly .linux64 17))).raises _ rfl

end RubyLzws.Results.OptionValidation
