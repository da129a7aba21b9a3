import Mathlib.Tactic.Common
import Mathlib.Logic.Function.Basic

/-!
# Arenas of cells with explicit release

An arena hands out a new handle for every cell and never hands one out again.
Writing to a cell or releasing it needs the cell to be live; otherwise there is
no next arena, which is how a stale handle and a double release show.
-/

namespace RubyLzws.Library

/-- The cells in use, by handle; no handle from `next` on has been handed out. -/
structure Arena (κ : Type) where
  cell : Nat → Option κ
  next : Nat
  unused : ∀ {handle}, next ≤ handle → cell handle = none

namespace Arena

variable {κ : Type}

/-- No cell is in use. -/
def empty : Arena κ where
  cell := fun _ => none
  next := 0
  unused := fun _ => rfl

/-- The handle has been handed out and not been released. -/
def Live (arena : Arena κ) (handle : Nat) : Prop := (arena.cell handle).isSome = true

instance (arena : Arena κ) (handle : Nat) : Decidable (arena.Live handle) :=
  inferInstanceAs (Decidable (_ = _))

/-- Replace one cell. -/
def replace (arena : Arena κ) (handle : Nat) (content : Option κ) (bound : handle < arena.next) :
    Arena κ where
  cell := Function.update arena.cell handle content
  next := arena.next
  unused := by
    intro other beyond
    rw [Function.update_of_ne (by omega)]
    exact arena.unused beyond

theorem Live.lt_next {arena : Arena κ} {handle : Nat} (live : arena.Live handle) :
    handle < arena.next := by
  apply Nat.lt_of_not_le
  intro beyond
  rw [Live, arena.unused beyond] at live
  cases live

/-- Take the handle `arena.next` into use. -/
def alloc (arena : Arena κ) (content : κ) : Arena κ where
  cell := Function.update arena.cell arena.next (some content)
  next := arena.next + 1
  unused := by
    intro other beyond
    rw [Function.update_of_ne (by omega)]
    exact arena.unused (by omega)

/-- Write to a live cell. -/
def set (arena : Arena κ) (handle : Nat) (content : κ) : Option (Arena κ) :=
  if live : arena.Live handle then some (arena.replace handle (some content) live.lt_next)
  else none

/-- Release a live cell. -/
def free (arena : Arena κ) (handle : Nat) : Option (Arena κ) :=
  if live : arena.Live handle then some (arena.replace handle none live.lt_next) else none

theorem live_of_cell {arena : Arena κ} {handle : Nat} {content : κ}
    (found : arena.cell handle = some content) : arena.Live handle := by
  simp [Live, found]

theorem not_live_empty (handle : Nat) : ¬ (empty : Arena κ).Live handle := by
  simp [Live, empty]

theorem not_live_next (arena : Arena κ) : ¬ arena.Live arena.next := fun live =>
  Nat.lt_irrefl _ live.lt_next

@[simp]
theorem cell_alloc_next (arena : Arena κ) (content : κ) :
    (arena.alloc content).cell arena.next = some content := Function.update_self _ _ _

theorem alloc_live_iff (arena : Arena κ) (content : κ) (handle : Nat) :
    (arena.alloc content).Live handle ↔ handle = arena.next ∨ arena.Live handle := by
  by_cases new : handle = arena.next
  · simp [Live, alloc, new]
  · simp [Live, alloc, new]

/-- What writing to a cell does. -/
structure Sets (before : Arena κ) (handle : Nat) (content : κ) (after : Arena κ) : Prop where
  cell_self : after.cell handle = some content
  cell_other : ∀ {other}, other ≠ handle → after.cell other = before.cell other

theorem exists_set {arena : Arena κ} {handle : Nat} (live : arena.Live handle) (content : κ) :
    ∃ after, arena.set handle content = some after ∧ arena.Sets handle content after := by
  refine ⟨_, dif_pos live, ?_⟩
  constructor
  · exact Function.update_self _ _ _
  · intro other different
    exact Function.update_of_ne different _ _

/-- An arena that a cell was written to. -/
theorem Sets.of_set {before after : Arena κ} {handle : Nat} {content : κ}
    (written : before.set handle content = some after) : before.Sets handle content after := by
  by_cases live : before.Live handle
  · obtain ⟨other, same, sets⟩ := exists_set live content
    rw [written] at same
    cases same
    exact sets
  · rw [set, dif_neg live] at written
    cases written

theorem Sets.live_iff {before after : Arena κ} {handle : Nat} {content : κ}
    (sets : before.Sets handle content after) (live : before.Live handle) (other : Nat) :
    after.Live other ↔ before.Live other := by
  by_cases same : other = handle
  · subst same
    exact iff_of_true (live_of_cell sets.cell_self) live
  · rw [Live, sets.cell_other same, Live]

/-- What releasing a cell does. -/
structure Frees (before : Arena κ) (handle : Nat) (after : Arena κ) : Prop where
  cell_self : after.cell handle = none
  cell_other : ∀ {other}, other ≠ handle → after.cell other = before.cell other

theorem exists_free {arena : Arena κ} {handle : Nat} (live : arena.Live handle) :
    ∃ after, arena.free handle = some after ∧ arena.Frees handle after := by
  refine ⟨_, dif_pos live, ?_⟩
  constructor
  · exact Function.update_self _ _ _
  · intro other different
    exact Function.update_of_ne different _ _

theorem Frees.live_iff {before after : Arena κ} {handle : Nat}
    (frees : before.Frees handle after) (other : Nat) :
    after.Live other ↔ other ≠ handle ∧ before.Live other := by
  by_cases same : other = handle
  · subst same
    simp [Live, frees.cell_self]
  · simp [Live, frees.cell_other same, same]

end Arena

end RubyLzws.Library
