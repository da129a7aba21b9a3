import RubyLzws.Ext.Value

/-!
# Option resolution of the extension

`option.c` and the macros of `option.h`: reading the option hash that Ruby
passes down into the option structures of lzws.
-/

namespace RubyLzws.Ext

/-- The symbols that name options; any other symbol may occur in a hash too. -/
inductive OptionName where
  | sourceBufferLength
  | destinationBufferLength
  | gvl
  | maxCodeBitLength
  | withoutMagicHeader
  | blockMode
  | msb
  | unalignedBitGroups
  | quiet
  | other (name : String)
  deriving DecidableEq, Repr

variable {p : Platform}

/-- A Ruby hash with symbol keys: `none` where the key is absent. -/
abbrev Hash (p : Platform) := OptionName → Option (Value p)

/-- `Hash#[]` of a hash without default: `nil` where the key is absent. -/
def Hash.get (options : Hash p) (name : OptionName) : Value p :=
  (options name).getD .nil

/-- `Hash#merge`: the second hash decides about the keys it has. -/
def Hash.merge (first second : Hash p) : Hash p := fun name =>
  match second name with
  | some value => some value
  | none => first name

/-- What a caller passes as options. -/
inductive Argument (p : Platform) where
  | hash (entries : Hash p)
  | notHash

/-- `Check_Type(options, T_HASH)` -/
def checkHash : Argument p → Except Raised (Hash p)
  | .hash entries => .ok entries
  | .notHash => .error .typeError

/-! ## Values -/

/-- `get_bool_value` -/
def getBoolValue (rawValue : Value p) : Except Raised Bool :=
  if rawValue.type ≠ .tTrue ∧ rawValue.type ≠ .tFalse then
    .error (lzwsExtRaiseError .validateFailed)
  else .ok (rawValue.type = .tTrue)

/-- `get_uint_value` -/
def getUintValue (rawValue : Value p) : Except Raised Nat := do
  checkType rawValue .tFixnum
  num2uint rawValue

/-- `get_size_value` -/
def getSizeValue (rawValue : Value p) : Except Raised Nat := do
  checkType rawValue .tFixnum
  num2sizet rawValue

/-- `lzws_ext_resolve_bool_option` -/
def lzwsExtResolveBoolOption (options : Hash p) (option : Bool) (name : OptionName) :
    Except Raised Bool :=
  match options.get name with
  | .nil => .ok option
  | rawValue => getBoolValue rawValue

/-- `lzws_ext_resolve_max_code_bit_length_option`; the assignment narrows the value. -/
def lzwsExtResolveMaxCodeBitLengthOption (options : Hash p) (option : Nat) (name : OptionName) :
    Except Raised Nat :=
  match options.get name with
  | .nil => .ok option
  | rawValue => do
      let value ← getUintValue rawValue
      return value % 2 ^ p.byteFastBits

/-- `LZWS_EXT_GET_BOOL_OPTION` -/
def lzwsExtGetBoolOptionValue (options : Hash p) (name : OptionName) : Except Raised Bool :=
  getBoolValue (options.get name)

/-- `LZWS_EXT_GET_SIZE_OPTION` -/
def lzwsExtGetSizeOptionValue (options : Hash p) (name : OptionName) : Except Raised Nat :=
  getSizeValue (options.get name)

/-! ## Option structures -/

/-- `lzws_compressor_options_t` -/
structure CompressorOptions where
  withoutMagicHeader : Bool
  maxCodeBitLength : Nat
  blockMode : Bool
  msb : Bool
  unalignedBitGroups : Bool
  quiet : Bool
  deriving DecidableEq, Repr

/-- `lzws_decompressor_options_t` -/
structure DecompressorOptions where
  withoutMagicHeader : Bool
  msb : Bool
  unalignedBitGroups : Bool
  quiet : Bool
  deriving DecidableEq, Repr

/-- `LZWS_EXT_GET_COMPRESSOR_OPTIONS` -/
def lzwsExtGetCompressorOptions (defaults : CompressorOptions) (options : Hash p) :
    Except Raised CompressorOptions := do
  let withoutMagicHeader ←
    lzwsExtResolveBoolOption options defaults.withoutMagicHeader .withoutMagicHeader
  let maxCodeBitLength ←
    lzwsExtResolveMaxCodeBitLengthOption options defaults.maxCodeBitLength .maxCodeBitLength
  let blockMode ← lzwsExtResolveBoolOption options defaults.blockMode .blockMode
  let msb ← lzwsExtResolveBoolOption options defaults.msb .msb
  let unalignedBitGroups ←
    lzwsExtResolveBoolOption options defaults.unalignedBitGroups .unalignedBitGroups
  let quiet ← lzwsExtResolveBoolOption options defaults.quiet .quiet
  return { withoutMagicHeader, maxCodeBitLength, blockMode, msb, unalignedBitGroups, quiet }

/-- `LZWS_EXT_GET_DECOMPRESSOR_OPTIONS` -/
def lzwsExtGetDecompressorOptions (defaults : DecompressorOptions) (options : Hash p) :
    Except Raised DecompressorOptions := do
  let withoutMagicHeader ←
    lzwsExtResolveBoolOption options defaults.withoutMagicHeader .withoutMagicHeader
  let msb ← lzwsExtResolveBoolOption options defaults.msb .msb
  let unalignedBitGroups ←
    lzwsExtResolveBoolOption options defaults.unalignedBitGroups .unalignedBitGroups
  let quiet ← lzwsExtResolveBoolOption options defaults.quiet .quiet
  return { withoutMagicHeader, msb, unalignedBitGroups, quiet }

/-! ## What the resolvers do -/

/-- The meaning of an option that may be absent: `nil` stands for the default of the library. -/
def Value.resolved (default : Bool) : Value p → Bool
  | .true => Bool.true
  | .false => Bool.false
  | _ => default

/-- The meaning of an integer option that may be absent. -/
def Value.resolvedNumber (default : Nat) : Value p → Nat
  | .integer value => value.toNat
  | _ => default

/-- A value that `lzws_ext_resolve_bool_option` takes. -/
inductive Value.IsFlag : Value p → Prop where
  | nil : IsFlag .nil
  | true : IsFlag .true
  | false : IsFlag .false

/-- A value in the range of `max_code_bit_length`, or none at all. -/
inductive Value.IsCodeBitLength : Value p → Prop where
  | nil : IsCodeBitLength .nil
  | integer {number : Nat} (lowest : 9 ≤ number) (biggest : number ≤ 16) :
      IsCodeBitLength (.integer number)

theorem lzwsExtResolveBoolOption_ok {options : Hash p} {name : OptionName}
    (flag : (options.get name).IsFlag) (default : Bool) :
    lzwsExtResolveBoolOption options default name =
      .ok ((options.get name).resolved default) := by
  unfold lzwsExtResolveBoolOption
  generalize options.get name = value at flag
  cases flag with
  | nil => rfl
  | true => rfl
  | false => rfl

/-- The narrow type of the field holds every length in the range. -/
theorem lzwsExtResolveMaxCodeBitLengthOption_ok {options : Hash p} {name : OptionName}
    (inRange : (options.get name).IsCodeBitLength) (default : Nat) :
    lzwsExtResolveMaxCodeBitLengthOption options default name =
      .ok ((options.get name).resolvedNumber default) := by
  unfold lzwsExtResolveMaxCodeBitLengthOption
  generalize options.get name = value at inRange
  cases inRange with
  | nil => rfl
  | @integer number lowest biggest =>
      have narrow : 2 ^ 8 ≤ 2 ^ p.byteFastBits :=
        Nat.pow_le_pow_right (by decide) p.byteFastBits_ge
      have small : IsFixnum p number := p.isFixnum_of_lt (by omega)
      have tag : checkType (p := p) (.integer number) .tFixnum = .ok () :=
        checkType_fixnum_ok.mpr ⟨number, rfl, small⟩
      have converted : num2uint (p := p) (.integer number) = .ok number := by
        have bounds : -(2 ^ 31 : Int) ≤ (number : Int) ∧ (number : Int) < 2 ^ 32 := by omega
        rw [num2uint, if_pos bounds, Int.emod_eq_of_lt (Int.natCast_nonneg number) bounds.2,
          Int.toNat_natCast]
      have fits : number % 2 ^ p.byteFastBits = number := Nat.mod_eq_of_lt (by omega)
      simp only [getUintValue, tag, converted, Value.resolvedNumber, Int.toNat_natCast]
      exact congrArg Except.ok fits

/-- A length converts just if it is a Fixnum; any other Integer is refused by its tag. -/
theorem lzwsExtGetSizeOptionValue_natural {options : Hash p} {name : OptionName} {number : Nat}
    (length : options.get name = .integer number) :
    lzwsExtGetSizeOptionValue options name =
      if IsFixnum p number then .ok number else .error .typeError := by
  rw [lzwsExtGetSizeOptionValue, length]
  split
  · next small =>
      have tag : checkType (p := p) (.integer number) .tFixnum = .ok () :=
        checkType_fixnum_ok.mpr ⟨number, rfl, small⟩
      simp only [getSizeValue, tag]
      exact num2sizet_of_fixnum small
  · next large =>
      have tag : checkType (p := p) (.integer number) .tFixnum = .error .typeError := by
        simp [checkType, Value.type, large]
      simp only [getSizeValue, tag]
      rfl

theorem lzwsExtGetBoolOptionValue_ok {options : Hash p} {name : OptionName}
    (flag : (options.get name).IsFlag) (given : options.get name ≠ .nil) :
    ∃ value, lzwsExtGetBoolOptionValue options name = .ok value := by
  unfold lzwsExtGetBoolOptionValue
  generalize options.get name = value at flag given
  cases flag with
  | nil => exact absurd rfl given
  | true => exact ⟨_, rfl⟩
  | false => exact ⟨_, rfl⟩

/-- The values that both option structures take from a hash. -/
structure Hash.FlagsValid (options : Hash p) : Prop where
  withoutMagicHeader : (options.get .withoutMagicHeader).IsFlag
  msb : (options.get .msb).IsFlag
  unalignedBitGroups : (options.get .unalignedBitGroups).IsFlag
  quiet : (options.get .quiet).IsFlag

/-- The values that only the compressor takes. -/
structure Hash.CompressorValid (options : Hash p) : Prop extends options.FlagsValid where
  maxCodeBitLength : (options.get .maxCodeBitLength).IsCodeBitLength
  blockMode : (options.get .blockMode).IsFlag

/-- The structure that a valid hash describes. -/
def Hash.compressorOptions (options : Hash p) (defaults : CompressorOptions) :
    CompressorOptions where
  withoutMagicHeader := (options.get .withoutMagicHeader).resolved defaults.withoutMagicHeader
  maxCodeBitLength := (options.get .maxCodeBitLength).resolvedNumber defaults.maxCodeBitLength
  blockMode := (options.get .blockMode).resolved defaults.blockMode
  msb := (options.get .msb).resolved defaults.msb
  unalignedBitGroups := (options.get .unalignedBitGroups).resolved defaults.unalignedBitGroups
  quiet := (options.get .quiet).resolved defaults.quiet

/-- The structure that a valid hash describes. -/
def Hash.decompressorOptions (options : Hash p) (defaults : DecompressorOptions) :
    DecompressorOptions where
  withoutMagicHeader := (options.get .withoutMagicHeader).resolved defaults.withoutMagicHeader
  msb := (options.get .msb).resolved defaults.msb
  unalignedBitGroups := (options.get .unalignedBitGroups).resolved defaults.unalignedBitGroups
  quiet := (options.get .quiet).resolved defaults.quiet

theorem lzwsExtGetCompressorOptions_ok {options : Hash p} (valid : options.CompressorValid)
    (defaults : CompressorOptions) :
    lzwsExtGetCompressorOptions defaults options = .ok (options.compressorOptions defaults) := by
  simp only [lzwsExtGetCompressorOptions, lzwsExtResolveBoolOption_ok valid.withoutMagicHeader,
    lzwsExtResolveMaxCodeBitLengthOption_ok valid.maxCodeBitLength,
    lzwsExtResolveBoolOption_ok valid.blockMode, lzwsExtResolveBoolOption_ok valid.msb,
    lzwsExtResolveBoolOption_ok valid.unalignedBitGroups,
    lzwsExtResolveBoolOption_ok valid.quiet]
  rfl

theorem lzwsExtGetDecompressorOptions_ok {options : Hash p} (valid : options.FlagsValid)
    (defaults : DecompressorOptions) :
    lzwsExtGetDecompressorOptions defaults options =
      .ok (options.decompressorOptions defaults) := by
  simp only [lzwsExtGetDecompressorOptions, lzwsExtResolveBoolOption_ok valid.withoutMagicHeader,
    lzwsExtResolveBoolOption_ok valid.msb,
    lzwsExtResolveBoolOption_ok valid.unalignedBitGroups,
    lzwsExtResolveBoolOption_ok valid.quiet]
  rfl

end RubyLzws.Ext
