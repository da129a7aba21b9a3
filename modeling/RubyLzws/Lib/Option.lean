import RubyLzws.Ext.Option

/-!
# Option validation in Ruby

`lib/lzws/option.rb` and `lib/lzws/validation.rb`: defaults, buffer lengths and the
caller's hash are merged, the result is validated and handed down as it is.  The
validators of ADSP are not part of this repository; what they accept is stated
with them.
-/

namespace RubyLzws.Lib

open Ext

variable {p : Platform}

/-- The validators of `ADSP::Validation` that the options go through. -/
structure Validation (p : Platform) where
  validateHash : Argument p → Except Raised Unit
  validateNotNegativeInteger : Value p → Except Raised Unit
  validatePositiveInteger : Value p → Except Raised Unit
  validateHash_ok : ∀ argument, validateHash argument = .ok () ↔
    ∃ entries, argument = .hash entries
  validateNotNegativeInteger_ok : ∀ value, validateNotNegativeInteger value = .ok () ↔
    ∃ number : Nat, value = .integer number
  validatePositiveInteger_ok : ∀ value, validatePositiveInteger value = .ok () ↔
    ∃ number : Nat, 0 < number ∧ value = .integer number

/-- `raise ValidateError, message` -/
def validateError (message : String) : Raised := .lzws .validateError message

/-- `validate_hash` -/
def documentedValidateHash : Argument p → Except Raised Unit
  | .hash _ => .ok ()
  | .notHash => .error (validateError "invalid hash")

/-- `validate_not_negative_integer` -/
def documentedValidateNotNegativeInteger : Value p → Except Raised Unit
  | .integer number =>
      if 0 ≤ number then .ok () else .error (validateError "invalid not negative integer")
  | _ => .error (validateError "invalid not negative integer")

/-- `validate_positive_integer` -/
def documentedValidatePositiveInteger : Value p → Except Raised Unit
  | .integer number =>
      if 0 < number then .ok () else .error (validateError "invalid positive integer")
  | _ => .error (validateError "invalid positive integer")

theorem documentedValidateHash_ok (argument : Argument p) :
    documentedValidateHash argument = .ok () ↔ ∃ entries, argument = .hash entries := by
  cases argument with
  | hash entries => exact iff_of_true rfl ⟨entries, rfl⟩
  | notHash => simp [documentedValidateHash]

theorem documentedValidateNotNegativeInteger_ok (value : Value p) :
    documentedValidateNotNegativeInteger value = .ok () ↔
      ∃ number : Nat, value = .integer number := by
  cases value with
  | integer number =>
      by_cases natural : 0 ≤ number
      · obtain ⟨number, rfl⟩ := Int.eq_ofNat_of_zero_le natural
        simp [documentedValidateNotNegativeInteger]
      · have refused : ∀ other : Nat, number ≠ other := by omega
        simp [documentedValidateNotNegativeInteger, natural, refused]
  | _ => simp [documentedValidateNotNegativeInteger]

theorem documentedValidatePositiveInteger_ok (value : Value p) :
    documentedValidatePositiveInteger value = .ok () ↔
      ∃ number : Nat, 0 < number ∧ value = .integer number := by
  cases value with
  | integer number =>
      by_cases positive : 0 < number
      · obtain ⟨number, rfl⟩ := Int.eq_ofNat_of_zero_le (Int.le_of_lt positive)
        have natural : 0 < number := Int.natCast_pos.mp positive
        simp [documentedValidatePositiveInteger, natural]
      · have refused : ¬ ∃ other : Nat, 0 < other ∧ number = other := by
          rintro ⟨other, above, same⟩
          omega
        simpa [documentedValidatePositiveInteger, positive] using refused
  | _ => simp [documentedValidatePositiveInteger]

/-- The validators as ADSP documents them. -/
def documentedValidation (p : Platform) : Validation p where
  validateHash := documentedValidateHash
  validateNotNegativeInteger := documentedValidateNotNegativeInteger
  validatePositiveInteger := documentedValidatePositiveInteger
  validateHash_ok := documentedValidateHash_ok
  validateNotNegativeInteger_ok := documentedValidateNotNegativeInteger_ok
  validatePositiveInteger_ok := documentedValidatePositiveInteger_ok

/-- `Validation.validate_bool` -/
def validateBool : Value p → Except Raised Unit
  | .true => .ok ()
  | .false => .ok ()
  | _ => .error (validateError "invalid bool")

/-- `LZWS_LOWEST_MAX_CODE_BIT_LENGTH` -/
def lowestMaxCodeBitLength : Int := 9

/-- `LZWS_BIGGEST_MAX_CODE_BIT_LENGTH` -/
def biggestMaxCodeBitLength : Int := 16

/-- `DEFAULT_BUFFER_LENGTH` -/
def defaultBufferLength : Int := 0

/-- `COMPRESSOR_DEFAULTS` -/
def compressorDefaults : Hash p
  | .gvl => some .false
  | .maxCodeBitLength => some .nil
  | .withoutMagicHeader => some .nil
  | .blockMode => some .nil
  | .msb => some .nil
  | .unalignedBitGroups => some .nil
  | .quiet => some .nil
  | _ => none

/-- `DECOMPRESSOR_DEFAULTS` -/
def decompressorDefaults : Hash p
  | .gvl => some .false
  | .withoutMagicHeader => some .nil
  | .msb => some .nil
  | .unalignedBitGroups => some .nil
  | .quiet => some .nil
  | _ => none

/-- `Hash#[]=` -/
def assign (options : Hash p) (name : OptionName) (value : Value p) : Hash p :=
  fun other => if other = name then some value else options other

/-- `buffer_length_defaults` -/
def bufferLengthDefaults (bufferLengthNames : List OptionName) : Hash p :=
  bufferLengthNames.foldl (fun defaults name => assign defaults name (.integer defaultBufferLength))
    fun _ => none

/-- `buffer_length_names.each { |name| Validation.validate_not_negative_integer options[name] }` -/
def validateBufferLengths (validation : Validation p) (options : Hash p) :
    List OptionName → Except Raised Unit
  | [] => .ok ()
  | name :: rest => do
      validation.validateNotNegativeInteger (options.get name)
      validateBufferLengths validation options rest

/-- A check under `unless value.nil?`. -/
def unlessNil (value : Value p) (check : Value p → Except Raised Unit) : Except Raised Unit :=
  match value with
  | .nil => .ok ()
  | value => check value

/-- The check of `max_code_bit_length`. -/
def validateMaxCodeBitLength (validation : Validation p) (maxCodeBitLength : Value p) :
    Except Raised Unit := do
  validation.validatePositiveInteger maxCodeBitLength
  match maxCodeBitLength with
  | .integer number =>
      if number < lowestMaxCodeBitLength ∨ number > biggestMaxCodeBitLength then
        .error (validateError "invalid max code bit length")
      else .ok ()
  -- Only integers are left here.
  | _ => .error .typeError

/-- `DEFAULTS.merge(buffer_length_defaults).merge options` -/
def mergedOptions (defaults : Hash p) (bufferLengthNames : List OptionName) (options : Hash p) :
    Hash p :=
  (defaults.merge (bufferLengthDefaults bufferLengthNames)).merge options

/-- `Option.get_compressor_options` -/
def getCompressorOptions (validation : Validation p) (options : Argument p)
    (bufferLengthNames : List OptionName) : Except Raised (Hash p) := do
  validation.validateHash options
  let given ← checkHash options
  let options := mergedOptions compressorDefaults bufferLengthNames given
  validateBufferLengths validation options bufferLengthNames
  validateBool (options.get .gvl)
  unlessNil (options.get .maxCodeBitLength) (validateMaxCodeBitLength validation)
  unlessNil (options.get .withoutMagicHeader) validateBool
  unlessNil (options.get .blockMode) validateBool
  unlessNil (options.get .msb) validateBool
  unlessNil (options.get .unalignedBitGroups) validateBool
  unlessNil (options.get .quiet) validateBool
  return options

/-- `Option.get_decompressor_options` -/
def getDecompressorOptions (validation : Validation p) (options : Argument p)
    (bufferLengthNames : List OptionName) : Except Raised (Hash p) := do
  validation.validateHash options
  let given ← checkHash options
  let options := mergedOptions decompressorDefaults bufferLengthNames given
  validateBufferLengths validation options bufferLengthNames
  validateBool (options.get .gvl)
  unlessNil (options.get .withoutMagicHeader) validateBool
  unlessNil (options.get .msb) validateBool
  unlessNil (options.get .unalignedBitGroups) validateBool
  unlessNil (options.get .quiet) validateBool
  return options

/-! ## What the validators accept -/

theorem validateBool_ok {value : Value p} :
    validateBool value = .ok () ↔ value.IsFlag ∧ value ≠ .nil := by
  constructor
  · intro accepted
    cases value with
    | true => exact ⟨.true, fun impossible => by cases impossible⟩
    | false => exact ⟨.false, fun impossible => by cases impossible⟩
    | nil => cases accepted
    | integer value => cases accepted
    | string value => cases accepted
    | other => cases accepted
  · rintro ⟨flag, given⟩
    cases flag with
    | nil => exact absurd rfl given
    | true => rfl
    | false => rfl

theorem unlessNil_validateBool_ok {value : Value p} :
    unlessNil value validateBool = .ok () ↔ value.IsFlag := by
  cases value with
  | nil => exact iff_of_true rfl .nil
  | true => exact iff_of_true rfl .true
  | false => exact iff_of_true rfl .false
  | integer value => exact iff_of_false (fun impossible => by cases impossible) fun flag => by cases flag
  | string value => exact iff_of_false (fun impossible => by cases impossible) fun flag => by cases flag
  | other => exact iff_of_false (fun impossible => by cases impossible) fun flag => by cases flag

theorem validateMaxCodeBitLength_ok {validation : Validation p} {value : Value p}
    (accepted : unlessNil value (validateMaxCodeBitLength validation) = .ok ()) :
    value.IsCodeBitLength := by
  by_cases absent : value = .nil
  · rw [absent]
    exact .nil
  · have checked : validateMaxCodeBitLength validation value = .ok () := by
      cases value with
      | nil => exact absurd rfl absent
      | true => exact accepted
      | false => exact accepted
      | integer value => exact accepted
      | string value => exact accepted
      | other => exact accepted
    obtain ⟨_, positive, ranged⟩ := bind_eq_ok.mp checked
    obtain ⟨number, _, rfl⟩ := (validation.validatePositiveInteger_ok value).mp positive
    dsimp only at ranged
    split at ranged
    · cases ranged
    · next inside =>
        have lowest : lowestMaxCodeBitLength = 9 := rfl
        have biggest : biggestMaxCodeBitLength = 16 := rfl
        exact .integer (by omega) (by omega)

theorem validateBufferLengths_ok {validation : Validation p} {options : Hash p}
    {bufferLengthNames : List OptionName}
    (accepted : validateBufferLengths validation options bufferLengthNames = .ok ()) :
    ∀ name ∈ bufferLengthNames, ∃ number : Nat, options.get name = .integer number := by
  induction bufferLengthNames with
  | nil =>
      intro name impossible
      cases impossible
  | cons first rest ih =>
      obtain ⟨_, checked, accepted⟩ := bind_eq_ok.mp accepted
      intro name member
      rcases List.mem_cons.mp member with rfl | later
      · exact (validation.validateNotNegativeInteger_ok _).mp checked
      · exact ih accepted name later

/-! ## What merging does -/

theorem foldl_assign_apply (bufferLengthNames : List OptionName) (start : Hash p)
    (name : OptionName) :
    (bufferLengthNames.foldl
        (fun defaults name => assign defaults name (.integer defaultBufferLength)) start) name =
      if name ∈ bufferLengthNames then some (.integer defaultBufferLength) else start name := by
  induction bufferLengthNames generalizing start with
  | nil => simp
  | cons first rest ih =>
      rw [List.foldl_cons, ih]
      by_cases later : name ∈ rest
      · simp [later]
      · by_cases same : name = first
        · simp [assign, same]
        · simp [assign, same, later]

/-- An option of the merged hash: as given, else a buffer length of 0, else the default. -/
theorem mergedOptions_get (defaults : Hash p) (bufferLengthNames : List OptionName)
    (options : Hash p) (name : OptionName) :
    (mergedOptions defaults bufferLengthNames options).get name =
      (options name).getD (if name ∈ bufferLengthNames then .integer defaultBufferLength
        else defaults.get name) := by
  have buffers := foldl_assign_apply (p := p) bufferLengthNames (fun _ => none) name
  unfold Hash.get mergedOptions Hash.merge bufferLengthDefaults
  rw [buffers]
  cases options name with
  | some value => rfl
  | none =>
      by_cases member : name ∈ bufferLengthNames
      · simp [member]
      · simp [member]

/-- An option whose default is `nil` is as given, unless it was a buffer length. -/
theorem mergedOptions_get_of_default {defaults : Hash p} {bufferLengthNames : List OptionName}
    {options : Hash p} {name : OptionName} (noBuffer : name ∉ bufferLengthNames)
    (default : defaults.get name = .nil) :
    (mergedOptions defaults bufferLengthNames options).get name = options.get name := by
  rw [mergedOptions_get, if_neg noBuffer, default]
  rfl

/-- Merging once more changes nothing. -/
theorem mergedOptions_idem (defaults given : Hash p) (names : List OptionName) :
    mergedOptions defaults names (mergedOptions defaults names given) =
      mergedOptions defaults names given := by
  funext name
  unfold mergedOptions Hash.merge
  cases given name with
  | some value => rfl
  | none =>
      cases bufferLengthDefaults names name with
      | some value => rfl
      | none => cases defaults name <;> rfl

/-! ## What is known of a returned hash -/

/-- What both functions have checked before they return a hash. -/
structure Accepted (defaults : Hash p) (bufferLengthNames : List OptionName)
    (options : Argument p) (returned : Hash p) : Prop where
  merged : ∃ given, options = .hash given ∧
    returned = mergedOptions defaults bufferLengthNames given
  lengths : ∀ name ∈ bufferLengthNames, ∃ number : Nat, returned.get name = .integer number
  gvl : (returned.get .gvl).IsFlag ∧ returned.get .gvl ≠ .nil
  flags : returned.FlagsValid

theorem Accepted.again {defaults returned : Hash p} {names : List OptionName}
    {options : Argument p} (accepted : Accepted defaults names options returned) :
    Accepted defaults names (.hash returned) returned := by
  obtain ⟨⟨given, same, merged⟩, lengths, gvl, flags⟩ := accepted
  refine ⟨⟨returned, rfl, ?_⟩, lengths, gvl, flags⟩
  rw [merged]
  exact (mergedOptions_idem defaults given names).symm

/-- A checked flag whose default is `nil` is as the caller gave it. -/
theorem Accepted.get_flag {defaults given returned : Hash p} {bufferLengthNames : List OptionName}
    (accepted : Accepted defaults bufferLengthNames (.hash given) returned) {name : OptionName}
    (default : defaults.get name = .nil) (flag : (returned.get name).IsFlag) :
    returned.get name = given.get name := by
  have noBuffer : name ∉ bufferLengthNames := by
    intro listed
    obtain ⟨number, length⟩ := accepted.lengths name listed
    rw [length] at flag
    cases flag
  obtain ⟨given', same, merged⟩ := accepted.merged
  cases same
  rw [merged]
  exact mergedOptions_get_of_default noBuffer default

variable {validation : Validation p} {options : Argument p} {bufferLengthNames : List OptionName}
  {returned : Hash p}

theorem getCompressorOptions_accepted
    (accepted : getCompressorOptions validation options bufferLengthNames = .ok returned) :
    Accepted compressorDefaults bufferLengthNames options returned ∧ returned.CompressorValid := by
  obtain ⟨_, _, accepted⟩ := bind_eq_ok.mp accepted
  obtain ⟨given, hash, accepted⟩ := bind_eq_ok.mp accepted
  obtain ⟨_, lengths, accepted⟩ := bind_eq_ok.mp accepted
  obtain ⟨_, gvl, accepted⟩ := bind_eq_ok.mp accepted
  obtain ⟨_, maxCodeBitLength, accepted⟩ := bind_eq_ok.mp accepted
  obtain ⟨_, withoutMagicHeader, accepted⟩ := bind_eq_ok.mp accepted
  obtain ⟨_, blockMode, accepted⟩ := bind_eq_ok.mp accepted
  obtain ⟨_, msb, accepted⟩ := bind_eq_ok.mp accepted
  obtain ⟨_, unalignedBitGroups, accepted⟩ := bind_eq_ok.mp accepted
  obtain ⟨_, quiet, accepted⟩ := bind_eq_ok.mp accepted
  cases accepted
  have flags : (mergedOptions compressorDefaults bufferLengthNames given).FlagsValid := by
    constructor
    · exact unlessNil_validateBool_ok.mp withoutMagicHeader
    · exact unlessNil_validateBool_ok.mp msb
    · exact unlessNil_validateBool_ok.mp unalignedBitGroups
    · exact unlessNil_validateBool_ok.mp quiet
  refine ⟨⟨⟨given, ?_, rfl⟩, validateBufferLengths_ok lengths, validateBool_ok.mp gvl, flags⟩,
    flags, validateMaxCodeBitLength_ok maxCodeBitLength,
    unlessNil_validateBool_ok.mp blockMode⟩
  cases options with
  | hash entries =>
      cases hash
      rfl
  | notHash => cases hash

theorem getDecompressorOptions_accepted
    (accepted : getDecompressorOptions validation options bufferLengthNames = .ok returned) :
    Accepted decompressorDefaults bufferLengthNames options returned := by
  obtain ⟨_, _, accepted⟩ := bind_eq_ok.mp accepted
  obtain ⟨given, hash, accepted⟩ := bind_eq_ok.mp accepted
  obtain ⟨_, lengths, accepted⟩ := bind_eq_ok.mp accepted
  obtain ⟨_, gvl, accepted⟩ := bind_eq_ok.mp accepted
  obtain ⟨_, withoutMagicHeader, accepted⟩ := bind_eq_ok.mp accepted
  obtain ⟨_, msb, accepted⟩ := bind_eq_ok.mp accepted
  obtain ⟨_, unalignedBitGroups, accepted⟩ := bind_eq_ok.mp accepted
  obtain ⟨_, quiet, accepted⟩ := bind_eq_ok.mp accepted
  cases accepted
  refine ⟨⟨given, ?_, rfl⟩, validateBufferLengths_ok lengths, validateBool_ok.mp gvl, ?_⟩
  · cases options with
    | hash entries =>
        cases hash
        rfl
    | notHash => cases hash
  · constructor
    · exact unlessNil_validateBool_ok.mp withoutMagicHeader
    · exact unlessNil_validateBool_ok.mp msb
    · exact unlessNil_validateBool_ok.mp unalignedBitGroups
    · exact unlessNil_validateBool_ok.mp quiet

end RubyLzws.Lib
