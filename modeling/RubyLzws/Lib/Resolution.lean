import RubyLzws.Lib.Option

/-!
# Accepted hashes in the extension

What the option functions of the extension make of a hash that the Ruby
validation returned.  Ruby takes any Integer from 0 on as a buffer length, the
extension only a Fixnum; about everything else the two agree.
-/

namespace RubyLzws.Lib

open Ext

variable {p : Platform}

/-- Resolving succeeds just if `fits` holds, and raises a `TypeError` otherwise. -/
structure ResolvesIff {α : Type} (resolution : Except Raised α) (fits : Prop) : Prop where
  succeeds_iff : (∃ resolved, resolution = .ok resolved) ↔ fits
  typeError : ¬ fits → resolution = .error .typeError

/-- The buffer length that the caller gave, if any, is a Fixnum. -/
def LengthFits (given : Hash p) (name : OptionName) : Prop :=
  ∀ number, given name = some (.integer number) → IsFixnum p number

theorem ResolvesIff.of_ok {α : Type} {resolution : Except Raised α}
    (ok : ∃ resolved, resolution = .ok resolved) : ResolvesIff resolution True :=
  ⟨iff_of_true ok trivial, fun impossible => absurd trivial impossible⟩

/-- Two resolutions one after the other. -/
theorem ResolvesIff.bind {α β : Type} {first : Except Raised α} {rest : α → Except Raised β}
    {fits others : Prop} (left : ResolvesIff first fits)
    (right : ∀ value, ResolvesIff (rest value) others) :
    ResolvesIff (first >>= rest) (fits ∧ others) := by
  by_cases yes : fits
  · obtain ⟨value, rfl⟩ := left.succeeds_iff.mpr yes
    constructor
    · exact (right value).succeeds_iff.trans (and_iff_right yes).symm
    · exact fun no => (right value).typeError fun other => no ⟨yes, other⟩
  · rw [left.typeError yes]
    constructor
    · refine iff_of_false ?_ fun both => yes both.1
      rintro ⟨_, impossible⟩
      cases impossible
    · exact fun _ => rfl

theorem ResolvesIff.congr {α : Type} {resolution : Except Raised α} {fits others : Prop}
    (resolves : ResolvesIff resolution fits) (same : fits ↔ others) :
    ResolvesIff resolution others :=
  ⟨resolves.succeeds_iff.trans same, fun no => resolves.typeError fun yes => no (same.mp yes)⟩

/-! ## The single options of an accepted hash -/

section Accepted

variable {defaults given returned : Hash p} {names : List OptionName}

/-- A validated length resolves just if the caller's is a Fixnum. -/
theorem size_resolvesIff (accepted : Accepted defaults names (.hash given) returned)
    {name : OptionName} (listed : name ∈ names) :
    ResolvesIff (lzwsExtGetSizeOptionValue returned name) (LengthFits given name) := by
  obtain ⟨number, length⟩ := accepted.lengths name listed
  obtain ⟨given', same, merged⟩ := accepted.merged
  cases same
  have fits : IsFixnum p number ↔ LengthFits given name := by
    rw [merged, mergedOptions_get, if_pos listed] at length
    unfold LengthFits
    cases read : given name with
    | none =>
        rw [read] at length
        cases length
        exact iff_of_true (@Platform.isFixnum_of_lt p 0 (by decide)) (by simp)
    | some value =>
        rw [read] at length
        cases length
        constructor
        · rintro small _ ⟨⟩
          exact small
        · exact fun small => small number rfl
  rw [lzwsExtGetSizeOptionValue_natural length]
  by_cases small : IsFixnum p number
  · rw [if_pos small]
    exact .congr (.of_ok ⟨_, rfl⟩) (iff_of_true trivial (fits.mp small))
  · rw [if_neg small]
    have unfit := fun long => small (fits.mpr long)
    refine ⟨iff_of_false ?_ unfit, fun _ => rfl⟩
    rintro ⟨_, impossible⟩
    cases impossible

theorem gvl_resolvesIff (accepted : Accepted defaults names (.hash given) returned) :
    ResolvesIff (lzwsExtGetBoolOptionValue returned .gvl) True :=
  .of_ok (lzwsExtGetBoolOptionValue_ok accepted.gvl.1 accepted.gvl.2)

/-- The reading common to the string functions and to `initialize`. -/
theorem one_length_resolvesIff {Options α : Type} (make : Nat → Bool → Options → α)
    {resolve : Except Raised Options}
    (accepted : Accepted defaults names (.hash given) returned)
    (listed : OptionName.destinationBufferLength ∈ names)
    (options : ∃ resolved, resolve = .ok resolved) :
    ResolvesIff (do
        let length ← lzwsExtGetSizeOptionValue returned .destinationBufferLength
        let gvl ← lzwsExtGetBoolOptionValue returned .gvl
        let options ← resolve
        return make length gvl options)
      (LengthFits given .destinationBufferLength) := by
  have rest := fun length : Nat => (gvl_resolvesIff accepted).bind fun gvl : Bool =>
    (ResolvesIff.of_ok options).bind fun options : Options =>
      @ResolvesIff.of_ok α (.ok (make length gvl options)) ⟨_, rfl⟩
  apply ((size_resolvesIff accepted listed).bind rest).congr
  simp

/-- The reading of the file functions. -/
theorem two_lengths_resolvesIff {Options α : Type} (make : Nat → Nat → Bool → Options → α)
    {resolve : Except Raised Options}
    (accepted : Accepted defaults names (.hash given) returned)
    (sourceListed : OptionName.sourceBufferLength ∈ names)
    (destinationListed : OptionName.destinationBufferLength ∈ names)
    (options : ∃ resolved, resolve = .ok resolved) :
    ResolvesIff (do
        let sourceLength ← lzwsExtGetSizeOptionValue returned .sourceBufferLength
        let length ← lzwsExtGetSizeOptionValue returned .destinationBufferLength
        let gvl ← lzwsExtGetBoolOptionValue returned .gvl
        let options ← resolve
        return make sourceLength length gvl options)
      (LengthFits given .sourceBufferLength ∧ LengthFits given .destinationBufferLength) :=
  (size_resolvesIff accepted sourceListed).bind fun sourceLength =>
    one_length_resolvesIff (make sourceLength) accepted destinationListed options

end Accepted

end RubyLzws.Lib
