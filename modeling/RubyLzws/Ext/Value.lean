import RubyLzws.Ext.Error
import RubyLzws.Ext.Platform

/-!
# Ruby values as the extension sees them

`TYPE` tells a value's tag; an Integer is a Fixnum or a Bignum by its magnitude.
`Check_Type` and the `NUM2...` conversions raise as Ruby documents them.
-/

namespace RubyLzws.Ext

/-- Ruby objects, as far as the modelled code tells them apart. -/
inductive Value (p : Platform) where
  | nil
  | true
  | false
  | integer (value : Int)
  | string (value : RString p)
  /-- Any other object: a Float, a Symbol, an Array, and so on. -/
  | other

/-- The tags that `TYPE` returns. -/
inductive Tag where
  | tNil
  | tTrue
  | tFalse
  | tFixnum
  | tBignum
  | tString
  | tObject
  deriving DecidableEq, Repr

variable {p : Platform}

/-- Fixnums are immediate integers of two bits less than a `long`. -/
def IsFixnum (p : Platform) (value : Int) : Prop :=
  -(p.fixnumBound : Int) ≤ value ∧ value < p.fixnumBound

instance (value : Int) : Decidable (IsFixnum p value) :=
  inferInstanceAs (Decidable (_ ∧ _))

/-- Small natural numbers are Fixnums on every platform. -/
theorem Platform.isFixnum_of_lt (p : Platform) {number : Nat} (small : number < 2 ^ 30) :
    IsFixnum p number := by
  have bits := p.longBits_ge
  have wide : 2 ^ 30 ≤ p.fixnumBound := Nat.pow_le_pow_right (by decide) (by omega)
  constructor
  · omega
  · omega

/-- `TYPE` -/
def Value.type : Value p → Tag
  | .nil => .tNil
  | .true => .tTrue
  | .false => .tFalse
  | .integer value => if IsFixnum p value then .tFixnum else .tBignum
  | .string _ => .tString
  | .other => .tObject

/-- `Check_Type` -/
def checkType (value : Value p) (tag : Tag) : Except Raised Unit :=
  if value.type = tag then .ok () else .error .typeError

/-- `NUM2UINT`: an `unsigned int` has 32 bits, and negative values down to `INT_MIN` wrap. -/
def num2uint : Value p → Except Raised Nat
  | .integer value =>
      if -(2 ^ 31 : Int) ≤ value ∧ value < 2 ^ 32 then .ok (value % 2 ^ 32).toNat
      else .error .rangeError
  | _ => .error .typeError

/-- `NUM2SIZET`: negative values down to `LONG_MIN` wrap. -/
def num2sizet : Value p → Except Raised Nat
  | .integer value =>
      if -(2 ^ (p.longBits - 1) : Int) ≤ value ∧ value < p.sizeModulus then
        .ok (value % p.sizeModulus).toNat
      else .error .rangeError
  | _ => .error .typeError

theorem checkType_fixnum_ok {value : Value p} :
    checkType value .tFixnum = .ok () ↔ ∃ number, value = .integer number ∧ IsFixnum p number := by
  cases value with
  | integer number =>
      by_cases small : IsFixnum p number
      · simp [checkType, Value.type, small]
      · simp [checkType, Value.type, small]
  | _ => simp [checkType, Value.type]

/-- A Fixnum that is not negative converts to the `size_t` of the same value. -/
theorem num2sizet_of_fixnum {number : Nat} (small : IsFixnum p number) :
    num2sizet (p := p) (.integer number) = .ok number := by
  have size := p.sizeModulus_eq
  have bound := p.maxStringLength_succ_eq
  have below : number < p.sizeModulus := by
    have upper := small.2
    omega
  have lower : -(2 ^ (p.longBits - 1) : Int) ≤ 0 := by
    have positive : (0 : Int) < 2 ^ (p.longBits - 1) := Int.pow_pos (by decide)
    omega
  have inside : -(2 ^ (p.longBits - 1) : Int) ≤ (number : Int) ∧ (number : Int) < p.sizeModulus :=
    ⟨by omega, by exact_mod_cast below⟩
  have same : ((number : Int) % (p.sizeModulus : Int)).toNat = number := by
    rw [Int.emod_eq_of_lt (Int.natCast_nonneg number) inside.2]
    exact Int.toNat_natCast number
  rw [num2sizet, if_pos inside, same]

end RubyLzws.Ext
