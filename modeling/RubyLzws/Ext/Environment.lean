import RubyLzws.Ext.Platform

/-!
# What the surroundings decide

Interrupts and allocations are not decided by the extension.  An environment
lists them in the order in which a run asks for them; where a list has run out,
nothing happens and every allocation succeeds.
-/

namespace RubyLzws.Ext

/-- What `rb_thread_call_without_gvl` finds when it checks for pending interrupts. -/
inductive Delivery where
  | nothing
  /-- An exception leaves before the function has run. -/
  | before
  /-- The function has run, and an exception leaves instead of a return. -/
  | after
  deriving DecidableEq, Repr

/-- The answers of the surroundings, each list in the order of the questions. -/
structure Environment where
  /-- One entry for each `rb_thread_call_without_gvl`. -/
  deliveries : List Delivery
  /-- One entry for each `rb_ary_new_from_args`: does it raise for lack of memory? -/
  arrayFailures : List Bool
  /-- One entry for each Ruby string created or resized: does it raise for lack of memory? -/
  stringFailures : List Bool
  /-- One entry for each allocation inside lzws: does it fail? -/
  nativeFailures : List Bool
  /-- What memory that nobody wrote holds. -/
  garbage : Nat → Byte

namespace Environment

/-- The surroundings in which nothing happens and memory never runs out. -/
def calm : Environment where
  deliveries := []
  arrayFailures := []
  stringFailures := []
  nativeFailures := []
  garbage := fun _ => 0

/-- The next delivery, and the surroundings after it. -/
def nextDelivery (env : Environment) : Delivery × Environment :=
  (env.deliveries.headD .nothing, { env with deliveries := env.deliveries.tail })

/-- Whether the next `rb_ary_new_from_args` raises. -/
def nextArrayFailure (env : Environment) : Bool × Environment :=
  (env.arrayFailures.headD false, { env with arrayFailures := env.arrayFailures.tail })

/-- Whether the next creation or resize of a Ruby string raises for lack of memory. -/
def nextStringFailure (env : Environment) : Bool × Environment :=
  (env.stringFailures.headD false, { env with stringFailures := env.stringFailures.tail })

/-- Whether the next allocation inside lzws fails. -/
def nextNativeFailure (env : Environment) : Bool × Environment :=
  (env.nativeFailures.headD false, { env with nativeFailures := env.nativeFailures.tail })

/-- Nothing happens and memory does not run out, as far as the lists say. -/
structure Quiet (env : Environment) : Prop where
  deliveries : ∀ delivery ∈ env.deliveries, delivery = .nothing
  arrayFailures : ∀ raises ∈ env.arrayFailures, raises = false
  stringFailures : ∀ fails ∈ env.stringFailures, fails = false
  nativeFailures : ∀ fails ∈ env.nativeFailures, fails = false

theorem calm_quiet : calm.Quiet := by
  constructor <;> simp [calm]

/-- The same surroundings, in which no interrupt is delivered. -/
def withoutDeliveries (env : Environment) : Environment := { env with deliveries := [] }

@[simp]
theorem nextArrayFailure_withoutDeliveries (env : Environment) :
    env.withoutDeliveries.nextArrayFailure =
      (env.nextArrayFailure.1, env.nextArrayFailure.2.withoutDeliveries) := rfl

@[simp]
theorem nextStringFailure_withoutDeliveries (env : Environment) :
    env.withoutDeliveries.nextStringFailure =
      (env.nextStringFailure.1, env.nextStringFailure.2.withoutDeliveries) := rfl

@[simp]
theorem nextNativeFailure_withoutDeliveries (env : Environment) :
    env.withoutDeliveries.nextNativeFailure =
      (env.nextNativeFailure.1, env.nextNativeFailure.2.withoutDeliveries) := rfl

@[simp]
theorem garbage_withoutDeliveries (env : Environment) :
    env.withoutDeliveries.garbage = env.garbage := rfl

/-- The surroundings `after` some more questions have been asked. -/
structure Later (before after : Environment) : Prop where
  deliveries : after.deliveries <:+ before.deliveries
  arrayFailures : after.arrayFailures <:+ before.arrayFailures
  stringFailures : after.stringFailures <:+ before.stringFailures
  nativeFailures : after.nativeFailures <:+ before.nativeFailures

theorem Later.refl (env : Environment) : env.Later env := by
  constructor <;> exact List.suffix_refl _

theorem Later.trans {first second third : Environment} (left : first.Later second)
    (right : second.Later third) : first.Later third := by
  constructor
  · exact right.deliveries.trans left.deliveries
  · exact right.arrayFailures.trans left.arrayFailures
  · exact right.stringFailures.trans left.stringFailures
  · exact right.nativeFailures.trans left.nativeFailures

theorem later_nextDelivery (env : Environment) : env.Later env.nextDelivery.2 :=
  { Later.refl env with deliveries := List.tail_suffix _ }

theorem later_nextArrayFailure (env : Environment) : env.Later env.nextArrayFailure.2 :=
  { Later.refl env with arrayFailures := List.tail_suffix _ }

theorem later_nextStringFailure (env : Environment) : env.Later env.nextStringFailure.2 :=
  { Later.refl env with stringFailures := List.tail_suffix _ }

theorem later_nextNativeFailure (env : Environment) : env.Later env.nextNativeFailure.2 :=
  { Later.refl env with nativeFailures := List.tail_suffix _ }

/-- Quiet surroundings stay quiet. -/
theorem Quiet.later {before after : Environment} (quiet : before.Quiet)
    (later : before.Later after) : after.Quiet := by
  constructor
  · exact fun _ member => quiet.deliveries _ (later.deliveries.subset member)
  · exact fun _ member => quiet.arrayFailures _ (later.arrayFailures.subset member)
  · exact fun _ member => quiet.stringFailures _ (later.stringFailures.subset member)
  · exact fun _ member => quiet.nativeFailures _ (later.nativeFailures.subset member)

/-- The head of a list all of whose entries are the default. -/
theorem headD_of_forall {α : Type} {entries : List α} {usual : α}
    (all : ∀ entry ∈ entries, entry = usual) : entries.headD usual = usual := by
  cases entries with
  | nil => rfl
  | cons entry rest => exact all entry List.mem_cons_self

theorem Quiet.nextArrayFailure {env : Environment} (quiet : env.Quiet) :
    env.nextArrayFailure.1 = false := headD_of_forall quiet.arrayFailures

theorem Quiet.nextStringFailure {env : Environment} (quiet : env.Quiet) :
    env.nextStringFailure.1 = false := headD_of_forall quiet.stringFailures

theorem Quiet.nextNativeFailure {env : Environment} (quiet : env.Quiet) :
    env.nextNativeFailure.1 = false := headD_of_forall quiet.nativeFailures

end Environment

/-- `LZWS_EXT_GVL_WRAP`: with the lock held the function is simply called. -/
def gvlWrap (p : Platform) (gvl : Bool) (env : Environment) : Delivery × Environment :=
  if gvl || !p.haveThreadCallWithoutGvl then (.nothing, env) else env.nextDelivery

/-- The codec keeps the lock of the virtual machine while it runs. -/
abbrev KeepsLock (p : Platform) (gvl : Bool) : Prop := (gvl || !p.haveThreadCallWithoutGvl) = true

theorem gvlWrap_of_locked {p : Platform} {gvl : Bool} (locked : KeepsLock p gvl)
    (env : Environment) : gvlWrap p gvl env = (.nothing, env) := if_pos locked

theorem gvlWrap_of_unlocked {p : Platform} {gvl : Bool} (unlocked : ¬ KeepsLock p gvl)
    (env : Environment) : gvlWrap p gvl env = env.nextDelivery := if_neg unlocked

theorem gvlWrap_locked (p : Platform) (env : Environment) :
    gvlWrap p true env = (.nothing, env) := rfl

/-- Releasing the lock asks for nothing but a delivery. -/
theorem gvlWrap_withoutDeliveries (p : Platform) (gvl : Bool) (env : Environment) :
    (gvlWrap p gvl env).2.withoutDeliveries = env.withoutDeliveries := by
  unfold gvlWrap
  split
  · rfl
  · rfl

theorem later_gvlWrap (p : Platform) (gvl : Bool) (env : Environment) :
    env.Later (gvlWrap p gvl env).2 := by
  unfold gvlWrap
  split
  · exact .refl env
  · exact env.later_nextDelivery

theorem Environment.Quiet.gvlWrap {env : Environment} (quiet : env.Quiet) (p : Platform)
    (gvl : Bool) : (gvlWrap p gvl env).1 = .nothing := by
  unfold Ext.gvlWrap
  split
  · rfl
  · exact headD_of_forall quiet.deliveries

end RubyLzws.Ext
