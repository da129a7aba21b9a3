import Mathlib.Tactic.Common

/-!
# Files with a stdio buffer

A C `FILE` opened for writing keeps elements in a buffer in front of a descriptor.
When a write spills the buffer, in which portions, and what becomes of elements whose
write-out has failed, is left to the C library; this module has what every library
promises of a fully buffered file, and one library that keeps the promise.
-/

namespace RubyLzws.Library.StdioFile

variable {φ α : Type}

/-- What a C library does with its files `φ`, and what is to be seen of a file. -/
structure Stdio (φ α : Type) where
  /-- Are all elements accepted, and what becomes of the file? -/
  fwrite : φ → List α → Bool × φ
  /-- Does it return 0, and what becomes of the file? -/
  fflush : φ → Bool × φ
  /-- What has reached the descriptor. -/
  delivered : φ → List α
  /-- Accepted from the program, but not yet written out. -/
  buffered : φ → List α
  /-- How many write-outs have failed. -/
  failures : φ → Nat

namespace Stdio

variable (stdio : Stdio φ α)

/-- What has been delivered, and what is still to come. -/
def content (file : φ) : List α := stdio.delivered file ++ stdio.buffered file

/-- A file was handed `elements`. -/
structure Takes (file after : φ) (elements : List α) : Prop where
  /-- Nothing comes back from the descriptor. -/
  delivered : stdio.delivered file <+: stdio.delivered after
  /-- Nothing is doubled or moved. -/
  order : (stdio.content after).Sublist (stdio.content file ++ elements)
  failures : stdio.failures file ≤ stdio.failures after
  /-- Only a write-out that fails may drop something. -/
  lossless : stdio.failures after = stdio.failures file →
    stdio.content after = stdio.content file ++ elements

/-- What is documented of `fwrite` and `fflush`: they report a write-out that has failed. -/
structure Lawful : Prop where
  fwrite_takes : ∀ file elements, stdio.Takes file (stdio.fwrite file elements).2 elements
  fwrite_accepts_iff : ∀ file elements, (stdio.fwrite file elements).1 = true ↔
    stdio.failures (stdio.fwrite file elements).2 = stdio.failures file
  fflush_takes : ∀ file, stdio.Takes file (stdio.fflush file).2 []
  fflush_succeeds_iff : ∀ file, (stdio.fflush file).1 = true ↔
    stdio.failures (stdio.fflush file).2 = stdio.failures file
  fflush_empties : ∀ file, (stdio.fflush file).1 = true →
    stdio.buffered (stdio.fflush file).2 = []
  /-- A flush that fails has not delivered everything. -/
  fflush_keeps_back : ∀ file, (stdio.fflush file).1 = false →
    stdio.delivered (stdio.fflush file).2 ≠ stdio.content file

variable {stdio}

theorem Takes.refl (file : φ) : stdio.Takes file file [] := by
  have kept : stdio.content file = stdio.content file ++ [] := (List.append_nil _).symm
  exact ⟨List.prefix_rfl, kept ▸ List.Sublist.refl _, Nat.le_refl _, fun _ => kept⟩

theorem Takes.trans {file middle after : φ} {first second : List α}
    (left : stdio.Takes file middle first) (right : stdio.Takes middle after second) :
    stdio.Takes file after (first ++ second) := by
  refine ⟨left.delivered.trans right.delivered, ?_, Nat.le_trans left.failures right.failures, ?_⟩
  · have earlier := left.order.append (List.Sublist.refl second)
    rw [List.append_assoc] at earlier
    exact right.order.trans earlier
  · intro same
    have first_none := left.failures
    have second_none := right.failures
    rw [right.lossless (by omega), left.lossless (by omega), List.append_assoc]

/-- A flush that succeeds delivers what was to come. -/
theorem Lawful.fflush_delivers (lawful : stdio.Lawful) {file : φ}
    (succeeds : (stdio.fflush file).1 = true) :
    stdio.delivered (stdio.fflush file).2 = stdio.content file := by
  have kept := (lawful.fflush_takes file).lossless ((lawful.fflush_succeeds_iff file).mp succeeds)
  rw [content, lawful.fflush_empties file succeeds, List.append_nil, List.append_nil] at kept
  exact kept

end Stdio

/-! ## A library with block writes -/

/--
A file whose buffer takes what fits; else the buffer and the new elements are written
out at once, and a write-out that fails drops what it has not delivered.
-/
structure BlockFile (α : Type) where
  capacity : Nat
  buffered : List α
  delivered : List α
  /-- The coming write-outs: `some count` fails after `count` elements; later ones succeed. -/
  writeOuts : List (Option Nat)
  failures : Nat

namespace BlockFile

/-- Everything buffered and the `elements` go to the descriptor; the last one may fail to. -/
def writeOut (file : BlockFile α) (elements : List α) : Bool × BlockFile α :=
  if file.buffered ++ elements = [] then (true, file)
  else
    match file.writeOuts.headD none with
    | none =>
        (true, { file with
          buffered := []
          delivered := file.delivered ++ (file.buffered ++ elements)
          writeOuts := file.writeOuts.tail })
    | some count =>
        (false, { file with
          buffered := []
          delivered := file.delivered ++ (file.buffered ++ elements).take
            (min count ((file.buffered ++ elements).length - 1))
          writeOuts := file.writeOuts.tail
          failures := file.failures + 1 })

def fwrite (file : BlockFile α) (elements : List α) : Bool × BlockFile α :=
  if file.buffered.length + elements.length ≤ file.capacity then
    (true, { file with buffered := file.buffered ++ elements })
  else file.writeOut elements

def fflush (file : BlockFile α) : Bool × BlockFile α := file.writeOut []

end BlockFile

/-- `fwrite` and `fflush` on block files. -/
def blockStdio (α : Type) : Stdio (BlockFile α) α where
  fwrite := BlockFile.fwrite
  fflush := BlockFile.fflush
  delivered := BlockFile.delivered
  buffered := BlockFile.buffered
  failures := BlockFile.failures

namespace BlockFile

/-- The three ends of a write-out: nothing to do, all delivered, or a proper part. -/
inductive WritesOut (file : BlockFile α) (elements : List α) : Bool × BlockFile α → Prop where
  | nothing (empty : file.buffered ++ elements = []) : WritesOut file elements (true, file)
  | all {after : BlockFile α} (emptied : after.buffered = [])
      (delivered : after.delivered = file.delivered ++ (file.buffered ++ elements))
      (failures : after.failures = file.failures) : WritesOut file elements (true, after)
  | part {after : BlockFile α} {count : Nat} (emptied : after.buffered = [])
      (proper : count < (file.buffered ++ elements).length)
      (delivered : after.delivered = file.delivered ++ (file.buffered ++ elements).take count)
      (failures : after.failures = file.failures + 1) : WritesOut file elements (false, after)

theorem writeOut_writesOut (file : BlockFile α) (elements : List α) :
    WritesOut file elements (file.writeOut elements) := by
  unfold writeOut
  split
  · next empty => exact .nothing empty
  · next some_left =>
      have positive := List.length_pos_iff.mpr some_left
      cases file.writeOuts.headD none with
      | none => exact .all rfl rfl rfl
      | some count => exact .part rfl (by omega) rfl rfl

theorem WritesOut.takes {file : BlockFile α} {elements : List α} {result : Bool × BlockFile α}
    (writes : WritesOut file elements result) :
    (blockStdio α).Takes file result.2 elements := by
  cases writes with
  | nothing empty =>
      rw [(List.append_eq_nil_iff.mp empty).2]
      exact .refl file
  | @all after emptied delivered failures =>
      have kept : (blockStdio α).content after = (blockStdio α).content file ++ elements := by
        simp [Stdio.content, blockStdio, emptied, delivered]
      exact ⟨⟨_, delivered.symm⟩, kept ▸ List.Sublist.refl _, Nat.le_of_eq failures.symm,
        fun _ => kept⟩
  | @part after count emptied proper delivered failures =>
      refine ⟨⟨_, delivered.symm⟩, ?_, ?_, ?_⟩
      · simp only [Stdio.content, blockStdio, emptied, delivered, List.append_nil,
          List.append_assoc]
        exact (List.Sublist.refl _).append (List.take_sublist _ _)
      · exact Nat.le.intro failures.symm
      · intro same
        exact absurd (failures.symm.trans same) (Nat.succ_ne_self _)

theorem WritesOut.accepts_iff {file : BlockFile α} {elements : List α}
    {result : Bool × BlockFile α} (writes : WritesOut file elements result) :
    result.1 = true ↔ result.2.failures = file.failures := by
  cases writes with
  | nothing empty => exact iff_of_true rfl rfl
  | all emptied delivered failures => exact iff_of_true rfl failures
  | part emptied proper delivered failures =>
      refine iff_of_false Bool.false_ne_true ?_
      intro same
      exact absurd (failures.symm.trans same) (Nat.succ_ne_self _)

theorem WritesOut.empties {file : BlockFile α} {elements : List α}
    {result : Bool × BlockFile α} (writes : WritesOut file elements result) :
    result.2.buffered = [] := by
  cases writes with
  | nothing empty => exact (List.append_eq_nil_iff.mp empty).1
  | all emptied delivered failures => exact emptied
  | part emptied proper delivered failures => exact emptied

theorem WritesOut.keeps_back {file : BlockFile α} {elements : List α}
    {result : Bool × BlockFile α} (writes : WritesOut file elements result)
    (fails : result.1 = false) :
    result.2.delivered ≠ file.delivered ++ (file.buffered ++ elements) := by
  cases writes with
  | nothing empty => cases fails
  | all emptied delivered failures => cases fails
  | part emptied proper delivered failures =>
      rw [delivered]
      intro same
      have shorter := congrArg List.length (List.append_cancel_left same)
      rw [List.length_take] at shorter
      omega

end BlockFile

theorem blockStdio_lawful (α : Type) : (blockStdio α).Lawful := by
  constructor
  · intro file elements
    change (blockStdio α).Takes file (file.fwrite elements).2 elements
    unfold BlockFile.fwrite
    split
    · have kept : (blockStdio α).content { file with buffered := file.buffered ++ elements } =
          (blockStdio α).content file ++ elements := (List.append_assoc _ _ _).symm
      exact ⟨List.prefix_rfl, kept ▸ List.Sublist.refl _, Nat.le_refl _, fun _ => kept⟩
    · exact (file.writeOut_writesOut elements).takes
  · intro file elements
    change (file.fwrite elements).1 = true ↔ (file.fwrite elements).2.failures = file.failures
    unfold BlockFile.fwrite
    split
    · exact iff_of_true rfl rfl
    · exact (file.writeOut_writesOut elements).accepts_iff
  · exact fun file => (file.writeOut_writesOut []).takes
  · exact fun file => (file.writeOut_writesOut []).accepts_iff
  · exact fun file _ => (file.writeOut_writesOut []).empties
  · intro file fails
    have short := (file.writeOut_writesOut []).keeps_back fails
    rw [List.append_nil] at short
    exact short

end RubyLzws.Library.StdioFile
