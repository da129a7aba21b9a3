import RubyLzws.Ext.Process

/-!
# What holds in every process

As long as the rule for threads is kept, distinct objects store distinct handles, so
that a step of one object leaves what the others hold; and the struct of an object stays
as it is while its codec runs.  Every call ends as it would if there were no other.
-/

namespace RubyLzws.Ext

open Library Library.Transducer Library.Interleaving

/-! ## Memory of different objects -/

section Memory

variable {σ : Type} {p : Platform}

/-- Two structs store different handles, where they are of one class. -/
structure Apart (sameClass : Prop) (first second : NativeStream) : Prop where
  states : sameClass → ∀ handle, first.statePtr = some handle → second.statePtr ≠ some handle
  buffers : ∀ handle, first.destinationBuffer = some handle →
    second.destinationBuffer ≠ some handle

theorem Apart.symm {sameClass : Prop} {first second : NativeStream}
    (apart : Apart sameClass first second) : Apart sameClass second first := by
  constructor
  · exact fun same handle own other => apart.states same handle other own
  · exact fun handle own other => apart.buffers handle other own

theorem exists_of_ownedState {slot : Slot} {handle : Nat}
    (own : ownedState slot.stream? = some handle) :
    ∃ stream, slot = .used stream ∧ stream.statePtr = some handle := by
  cases slot with
  | used stream => exact ⟨stream, rfl, own⟩
  | unused => cases own
  | collected => cases own

theorem exists_of_ownedBuffer {slot : Slot} {handle : Nat}
    (own : ownedBuffer slot.stream? = some handle) :
    ∃ stream, slot = .used stream ∧ stream.destinationBuffer = some handle := by
  cases slot with
  | used stream => exact ⟨stream, rfl, own⟩
  | unused => cases own
  | collected => cases own

variable {stream : NativeStream} {states others : Arena σ} {buffers blocks : Arena (Block p)}
  {contents : Contents σ} {handle : Nat}

theorem Holds.state_live (holds : Holds (some stream) states buffers contents)
    (stored : stream.statePtr = some handle) : states.Live handle := by
  cases contents with
  | none =>
      obtain ⟨_, object, null, _⟩ := holds
      cases object
      rw [null] at stored
      cases stored
  | some channel =>
      obtain ⟨_, stateHandle, _, _, opened⟩ := holds
      cases opened.object
      rw [opened.statePtr] at stored
      cases stored
      exact Arena.live_of_cell opened.state

theorem Holds.buffer_live (holds : Holds (some stream) states buffers contents)
    (stored : stream.destinationBuffer = some handle) : buffers.Live handle := by
  cases contents with
  | none =>
      obtain ⟨_, object, _, null⟩ := holds
      cases object
      rw [null] at stored
      cases stored
  | some channel =>
      obtain ⟨_, _, bufferHandle, _, opened⟩ := holds
      cases opened.object
      rw [opened.destinationBuffer] at stored
      cases stored
      exact Arena.live_of_cell opened.block

/-- **The frame rule**: what a struct holds depends on the cells that it stores only. -/
theorem Holds.frame (holds : Holds (some stream) states buffers contents)
    (sameState : ∀ handle, stream.statePtr = some handle → others.cell handle = states.cell handle)
    (sameBlock : ∀ handle, stream.destinationBuffer = some handle →
      blocks.cell handle = buffers.cell handle) :
    Holds (some stream) others blocks contents := by
  cases contents with
  | none => exact holds
  | some channel =>
      obtain ⟨found, stateHandle, bufferHandle, block, opened⟩ := holds
      obtain rfl : stream = found := Option.some.inj opened.object
      exact ⟨stream, stateHandle, bufferHandle, block, { opened with
        state := (sameState _ opened.statePtr).trans opened.state
        block := (sameBlock _ opened.destinationBuffer).trans opened.block }⟩

end Memory

/-! ## Objects on their own -/

/-- On its own, an object shows what its contents answer. -/
theorem solo_eq {κ ι : Type} {σ μ : κ → Type} {kind : ι → κ} {p : Platform}
    (classes : (class_ : κ) → StreamClass (σ class_) p (μ class_)) (object : ι)
    (inputs : List (μ (kind object) × Environment)) {world : World (σ (kind object)) p}
    {contents : Contents (σ (kind object))} (holds : world.Holds contents) :
    solo (classes (kind object)).call inputs world =
      (alone (answers classes kind) object inputs contents).1.map some := by
  induction inputs generalizing world contents with
  | nil => rfl
  | cons input inputs ih =>
      rcases input with ⟨method, env⟩
      have same : World.Holds { world with environment := env } contents := holds
      obtain ⟨after, ends, sees, holdsAfter, _⟩ :=
        (classes (kind object)).simulates method same
      simp only [solo, ends, sees]
      rw [ih holdsAfter]
      rfl

/-! ## The invariant -/

section Invariant

variable {κ ι θ : Type} {σ μ : κ → Type} {kind : ι → κ} {p : Platform}

/-- Each object holds contents of its own, and stays as it is while its codec runs. -/
structure Invariant (classes : (class_ : κ) → StreamClass (σ class_) p (μ class_))
    (process : Process σ μ kind p θ) (contents : (object : ι) → Contents (σ (kind object))) :
    Prop where
  used : ∀ {object stream}, process.objects object = .used stream →
    Holds (some stream) (process.states (kind object)) process.buffers (contents object)
  unused : ∀ {object}, process.objects object = .unused → contents object = none
  apart : ∀ {object other first second}, object ≠ other →
    process.objects object = .used first → process.objects other = .used second →
      Apart (kind object = kind other) first second
  flights : ∀ {thread flight}, process.flights thread = some flight →
    ∃ stream, process.objects flight.object = .used stream ∧
      (classes (kind flight.object)).initializes flight.method = false ∧
      Suspended ((classes (kind flight.object)).call flight.method) stream flight.resume
  alone : ∀ {thread other flight flight'}, process.flights thread = some flight →
    process.flights other = some flight' → flight.object = flight'.object → thread = other

variable {classes : (class_ : κ) → StreamClass (σ class_) p (μ class_)}
  {process : Process σ μ kind p θ} {contents : (object : ι) → Contents (σ (kind object))}
  {object : ι} {stream : NativeStream}

theorem Invariant.start :
    Invariant classes (.start σ μ kind p θ) fun _ => none := by
  constructor
  · intro object stream impossible
    cases impossible
  · intro object _
    rfl
  · intro object other first second _ impossible
    cases impossible
  · intro thread flight impossible
    cases impossible
  · intro thread other flight flight' impossible
    cases impossible

theorem Invariant.view_holds (inv : Invariant classes process contents)
    (slot : process.objects object = .used stream) (env : Environment) :
    (process.view object env).Holds (contents object) := by
  rw [World.Holds, Process.view, slot]
  exact inv.used slot

/-- No thread has released the lock, and none is going to. -/
structure Grounded (process : Process σ μ kind p θ)
    (contents : (object : ι) → Contents (σ (kind object))) : Prop where
  flights : ∀ thread, process.flights thread = none
  keeps : ∀ object, (contents object).KeepsLock p

theorem Grounded.exclusive (grounded : Grounded process contents) (event : Event μ kind θ) :
    Exclusive process event := by
  have idle : ∀ object, process.Idle object := by
    intro object thread flight found
    rw [grounded.flights thread] at found
    cases found
  cases event with
  | allocate object => trivial
  | enter thread object method env => exact idle object
  | commit thread => trivial
  | collect object => exact idle object

section Flights

variable [DecidableEq θ] {thread : θ}

/-- A call that releases the lock goes on with the struct that it has seen. -/
theorem Invariant.depart (inv : Invariant classes process contents)
    (slot : process.objects object = .used stream) (idle : process.Idle object)
    (method : μ (kind object)) (env : Environment)
    {resume : World (σ (kind object)) p → Effect (σ (kind object)) p}
    (later : (classes (kind object)).initializes method = false)
    (suspended : Suspended ((classes (kind object)).call method) stream resume) :
    Invariant classes (process.setFlight thread (some ⟨object, method, env, resume⟩))
      contents := by
  refine ⟨inv.used, inv.unused, inv.apart, ?_, ?_⟩
  · intro other flight found
    by_cases same : other = thread
    · subst same
      rw [process.setFlight_self] at found
      cases found
      exact ⟨stream, slot, later, suspended⟩
    · rw [process.setFlight_other same] at found
      exact inv.flights found
  · intro first second flight flight' found found' same
    by_cases one : first = thread
    · by_cases two : second = thread
      · exact one.trans two.symm
      · subst one
        rw [process.setFlight_self] at found
        rw [process.setFlight_other two] at found'
        cases found
        exact absurd same.symm (idle second flight' found')
    · rw [process.setFlight_other one] at found
      by_cases two : second = thread
      · subst two
        rw [process.setFlight_self] at found'
        cases found'
        exact absurd same (idle first flight found)
      · rw [process.setFlight_other two] at found'
        exact inv.alone found found' same

/-- A thread that has taken the lock again leaves its object idle. -/
theorem Invariant.land (inv : Invariant classes process contents)
    {flight : Flight σ μ kind p} (found : process.flights thread = some flight) :
    Invariant classes (process.setFlight thread none) contents ∧
      (process.setFlight thread none).Idle flight.object := by
  have others : ∀ {other flight'}, (process.setFlight thread none).flights other = some flight' →
      other ≠ thread ∧ process.flights other = some flight' := by
    intro other flight' found'
    by_cases same : other = thread
    · subst same
      rw [process.setFlight_self] at found'
      cases found'
    · rw [process.setFlight_other same] at found'
      exact ⟨same, found'⟩
  constructor
  · refine ⟨inv.used, inv.unused, inv.apart, ?_, ?_⟩
    · exact fun found' => inv.flights (others found').2
    · exact fun one two => inv.alone (others one).2 (others two).2
  · intro other flight' found' same
    obtain ⟨different, still⟩ := others found'
    exact different (inv.alone still found same)

end Flights

/-- What an object owns, no other struct stores. -/
theorem Invariant.foreign (inv : Invariant classes process contents) {other : ι}
    {second : NativeStream} (different : other ≠ object)
    (found : process.objects other = .used second) :
    (kind object = kind other → ∀ handle,
      ownedState (process.objects object).stream? = some handle →
        second.statePtr ≠ some handle) ∧
    ∀ handle, ownedBuffer (process.objects object).stream? = some handle →
      second.destinationBuffer ≠ some handle := by
  constructor
  · intro sameClass handle own
    obtain ⟨first, slot, stored⟩ := exists_of_ownedState own
    exact (inv.apart (Ne.symm different) slot found).states sameClass handle stored
  · intro handle own
    obtain ⟨first, slot, stored⟩ := exists_of_ownedBuffer own
    exact (inv.apart (Ne.symm different) slot found).buffers handle stored

section Put

variable {after : Slot} {states : Arena (σ (kind object))} {buffers : Arena (Block p)}
  {new : Contents (σ (kind object))} {other : ι} {second : NativeStream}

/-- What an object owns after a local step is what it owned, or what nobody has stored yet. -/
theorem Invariant.put_apart (inv : Invariant classes process contents)
    (touchedStates : LocalTo (process.states (kind object))
      (ownedState (process.objects object).stream?) states (ownedState after.stream?))
    (touchedBuffers : LocalTo process.buffers (ownedBuffer (process.objects object).stream?)
      buffers (ownedBuffer after.stream?))
    (different : other ≠ object) (found : process.objects other = .used second)
    {next : NativeStream} (now : after = .used next) :
    Apart (kind object = kind other) next second := by
  obtain ⟨statesApart, buffersApart⟩ := inv.foreign different found
  subst now
  constructor
  · intro sameClass handle own stored
    rcases touchedStates.owns handle own with already | fresh
    · exact statesApart sameClass handle already stored
    · rw [sameClass] at fresh
      exact fresh ((inv.used found).state_live stored)
  · intro handle own stored
    rcases touchedBuffers.owns handle own with already | fresh
    · exact buffersApart handle already stored
    · exact fresh ((inv.used found).buffer_live stored)

variable [DecidableEq κ]

/-- A cell that the object does not store is the same after its step. -/
theorem update_cell {before : (class_ : κ) → Arena (σ class_)}
    {after : Arena (σ (kind object))} {owned ownedAfter : Option Nat}
    (touched : LocalTo (before (kind object)) owned after ownedAfter) (class_ : κ) {handle : Nat}
    (live : (before class_).Live handle)
    (foreign : class_ = kind object → owned ≠ some handle) :
    (Function.update before (kind object) after class_).cell handle =
      (before class_).cell handle := by
  by_cases same : class_ = kind object
  · subst same
    rw [Function.update_self]
    exact touched.others handle live (foreign rfl)
  · rw [Function.update_of_ne same]

/-- The others' contents are where they were after a local step of an object. -/
theorem Invariant.put_holds (inv : Invariant classes process contents)
    (touchedStates : LocalTo (process.states (kind object))
      (ownedState (process.objects object).stream?) states (ownedState after.stream?))
    (touchedBuffers : LocalTo process.buffers (ownedBuffer (process.objects object).stream?)
      buffers (ownedBuffer after.stream?))
    (different : other ≠ object) (found : process.objects other = .used second) :
    Holds (some second) (Function.update process.states (kind object) states (kind other)) buffers
      (contents other) := by
  obtain ⟨statesApart, buffersApart⟩ := inv.foreign different found
  apply (inv.used found).frame
  · intro handle stored
    refine update_cell touchedStates (kind other) ((inv.used found).state_live stored) ?_
    exact fun sameClass own => statesApart sameClass.symm handle own stored
  · intro handle stored
    refine touchedBuffers.others handle ((inv.used found).buffer_live stored) ?_
    exact fun own => buffersApart handle own stored

variable [DecidableEq ι]

/-- A local step of an idle object keeps the invariant. -/
theorem Invariant.put (inv : Invariant classes process contents) (idle : process.Idle object)
    (touchedStates : LocalTo (process.states (kind object))
      (ownedState (process.objects object).stream?) states (ownedState after.stream?))
    (touchedBuffers : LocalTo process.buffers (ownedBuffer (process.objects object).stream?)
      buffers (ownedBuffer after.stream?))
    (known : after ≠ .unused)
    (holds : ∀ next, after = .used next → Holds (some next) states buffers new) :
    Invariant classes (process.put object after states buffers)
      (Function.update contents object new) := by
  constructor
  · intro other second found
    by_cases same : other = object
    · subst same
      rw [process.put_objects_self] at found
      simp only [Process.put, Function.update_self]
      exact holds second found
    · rw [process.put_objects_other same] at found
      rw [Function.update_of_ne same]
      exact inv.put_holds touchedStates touchedBuffers same found
  · intro other found
    by_cases same : other = object
    · subst same
      rw [process.put_objects_self] at found
      exact absurd found known
    · rw [process.put_objects_other same] at found
      rw [Function.update_of_ne same]
      exact inv.unused found
  · intro first second one two different found found'
    by_cases same : first = object
    · subst same
      have same' := Ne.symm different
      rw [process.put_objects_self] at found
      rw [process.put_objects_other same'] at found'
      exact inv.put_apart touchedStates touchedBuffers same' found' found
    · rw [process.put_objects_other same] at found
      by_cases same' : second = object
      · subst same'
        rw [process.put_objects_self] at found'
        have apart := (inv.put_apart touchedStates touchedBuffers same found found').symm
        exact ⟨fun sameClass => apart.states sameClass.symm, apart.buffers⟩
      · rw [process.put_objects_other same'] at found'
        exact inv.apart different found found'
  · intro thread flight found
    obtain ⟨stream, held, rest⟩ := inv.flights found
    refine ⟨stream, ?_, rest⟩
    rw [process.put_objects_other (idle thread flight found)]
    exact held
  · exact fun found found' same => inv.alone found found' same

end Put

variable [DecidableEq κ] [DecidableEq ι]

/-- The process after a whole call on an object. -/
def Settled (classes : (class_ : κ) → StreamClass (σ class_) p (μ class_))
    (process : Process σ μ kind p θ) (object : ι) (method : μ (kind object)) (env : Environment)
    (next : Process σ μ kind p θ) : Prop :=
  ∃ world stream,
    ((classes (kind object)).call method (process.view object env)).world? = some world ∧
    world.object = some stream ∧ next = process.put object (.used stream) world.states world.buffers

/-- What an object holds after it has answered. -/
def answered (classes : (class_ : κ) → StreamClass (σ class_) p (μ class_))
    (contents : (object : ι) → Contents (σ (kind object))) (object : ι) (method : μ (kind object))
    (env : Environment) : (object : ι) → Contents (σ (kind object)) :=
  Function.update contents object
    (answers classes kind object (method, env) (contents object)).2

/-- A call that has ended as the object would have ended it on its own. -/
def entryOf (classes : (class_ : κ) → StreamClass (σ class_) p (μ class_))
    (contents : (object : ι) → Contents (σ (kind object))) (object : ι) (method : μ (kind object))
    (env : Environment) : Ended μ kind :=
  ⟨object, (method, env), (answers classes kind object (method, env) (contents object)).1⟩

/-- **A call on an idle object ends as the object would on its own.** -/
theorem Invariant.settle (inv : Invariant classes process contents)
    (slot : process.objects object = .used stream) (idle : process.Idle object)
    (method : μ (kind object)) (env : Environment) :
    ∃ next, process.settle object method env
        ((classes (kind object)).call method (process.view object env)) =
          .moved next (some (entryOf classes contents object method env)) ∧
      Settled classes process object method env next ∧
      Invariant classes next (answered classes contents object method env) := by
  obtain ⟨after, ends, sees, holdsAfter, _, touched⟩ :=
    (classes (kind object)).simulates method (inv.view_holds slot env)
  have touchedStates := touched.states
  have touchedBuffers := touched.buffers
  obtain ⟨next, assigned⟩ := holdsAfter.exists_object
  rcases after with ⟨states, buffers, found, after, calls⟩
  obtain rfl : found = some next := assigned
  refine ⟨process.put object (.used next) states buffers, ?_, ⟨_, next, ends, rfl, rfl⟩, ?_⟩
  · unfold Process.settle
    rw [ends, sees]
    rfl
  · refine inv.put idle touchedStates touchedBuffers (by simp) ?_
    intro other same
    cases same
    exact holdsAfter

/-- A new object holds nothing. -/
theorem Invariant.allocate (inv : Invariant classes process contents)
    (slot : process.objects object = .unused) :
    Invariant classes (process.put object (.used .allocated) (process.states (kind object))
      process.buffers) contents := by
  have idle : process.Idle object := by
    rintro thread flight found rfl
    obtain ⟨stream, held, _⟩ := inv.flights found
    rw [slot] at held
    cases held
  have same : Function.update contents object none = contents := by
    rw [← inv.unused slot]
    exact Function.update_eq_self object contents
  rw [← same]
  refine inv.put idle ?_ ?_ (by simp) ?_
  · rw [slot]
    exact .refl _ none
  · rw [slot]
    exact .refl _ none
  · intro next known
    cases known
    exact ⟨_, rfl, rfl, rfl⟩

/-- The garbage collector releases what an object stored. -/
theorem Invariant.collect (inv : Invariant classes process contents)
    (slot : process.objects object = .used stream) (idle : process.Idle object) :
    ∃ world, freeStream (process.view object .calm) = some world ∧
      Invariant classes (process.put object .collected world.states world.buffers) contents := by
  have holds : (process.view object .calm).Holds (contents object) := by
    rw [World.Holds, Process.view, slot]
    exact inv.used slot
  obtain ⟨world, freed, touchedStates, touchedBuffers⟩ := freeStream_local holds
  refine ⟨world, freed, ?_⟩
  rw [← Function.update_eq_self object contents]
  exact inv.put idle touchedStates touchedBuffers (by simp) fun _ impossible => by cases impossible

variable [DecidableEq θ]

/--
Everything an event can do, with the contents afterwards: make or collect an object, let
a call go on without the lock, or end a call as its object would on its own.
-/
inductive Advances (classes : (class_ : κ) → StreamClass (σ class_) p (μ class_))
    (process : Process σ μ kind p θ) (contents : (object : ι) → Contents (σ (kind object))) :
    Event μ kind θ → Process σ μ kind p θ → Option (Ended μ kind) →
      ((object : ι) → Contents (σ (kind object))) → Prop where
  | allocated {object : ι} (slot : process.objects object = .unused) :
      Advances classes process contents (.allocate object)
        (process.put object (.used .allocated) (process.states (kind object)) process.buffers) none
        contents
  | departed {thread : θ} {object : ι} {method : μ (kind object)} {env : Environment}
      {resume : World (σ (kind object)) p → Effect (σ (kind object)) p}
      {channel : Channel (σ (kind object))} (opened : contents object = some channel)
      (unlocked : ¬ KeepsLock p channel.gvl) :
      Advances classes process contents (.enter thread object method env)
        (process.setFlight thread (some ⟨object, method, env, resume⟩)) none contents
  | ended {thread : θ} {object : ι} {method : μ (kind object)} {env : Environment}
      {next : Process σ μ kind p θ} {stream : NativeStream}
      (slot : process.objects object = .used stream)
      (settled : Settled classes process object method env next) :
      Advances classes process contents (.enter thread object method env) next
        (some (entryOf classes contents object method env))
        (answered classes contents object method env)
  | landed {thread : θ} {flight : Flight σ μ kind p} {next : Process σ μ kind p θ}
      {stream : NativeStream} (found : process.flights thread = some flight)
      (slot : process.objects flight.object = .used stream)
      (later : (classes (kind flight.object)).initializes flight.method = false)
      (settled : Settled classes (process.setFlight thread none) flight.object flight.method
        flight.environment next) :
      Advances classes process contents (.commit thread) next
        (some (entryOf classes contents flight.object flight.method flight.environment))
        (answered classes contents flight.object flight.method flight.environment)
  | collected {object : ι} {world : World (σ (kind object)) p} {stream : NativeStream}
      (slot : process.objects object = .used stream)
      (freed : freeStream (process.view object .calm) = some world) :
      Advances classes process contents (.collect object)
        (process.put object .collected world.states world.buffers) none contents

/-- **The step lemma**: under the rule for threads nothing undefined happens. -/
theorem Invariant.step (inv : Invariant classes process contents) {event : Event μ kind θ}
    (exclusive : Exclusive process event) {moved : Moved σ μ kind p θ}
    (steps : process.step classes event = some moved) :
    ∃ next ended new, moved = .moved next ended ∧
      Advances classes process contents event next ended new ∧ Invariant classes next new := by
  cases event with
  | allocate object =>
      simp only [Process.step] at steps
      split at steps
      · next slot =>
          cases steps
          exact ⟨_, _, _, rfl, .allocated slot, inv.allocate slot⟩
      · cases steps
  | enter thread object method env =>
      simp only [Process.step] at steps
      split at steps
      · next free slot =>
          have enters := (classes (kind object)).enters method (process.view object env)
          cases entered : (classes (kind object)).enter method (process.view object env) with
          | ended effect =>
              rw [entered] at enters steps
              cases enters
              cases steps
              obtain ⟨next, same, settled, kept⟩ := inv.settle slot exclusive method env
              exact ⟨_, _, _, same, .ended slot settled, kept⟩
          | released resume =>
              have later := (classes (kind object)).released entered
              rw [entered] at enters steps
              cases steps
              cases enters with
              | released seen suspended =>
                  rw [Process.view, slot] at seen
                  cases seen
                  obtain ⟨channel, opened, unlocked⟩ := suspended.exists_channel (inv.used slot)
                  exact ⟨_, _, _, rfl, .departed opened unlocked,
                    inv.depart slot exclusive method env later suspended⟩
      · cases steps
  | commit thread =>
      simp only [Process.step] at steps
      split at steps
      · cases steps
      · next flight found =>
          cases steps
          obtain ⟨stream, slot, later, suspended⟩ := inv.flights found
          obtain ⟨landed, idle⟩ := inv.land found
          have seen : (process.view flight.object flight.environment).object = some stream := by
            rw [Process.view, slot]
            rfl
          rw [suspended.resume_eq seen]
          obtain ⟨next, same, settled, kept⟩ :=
            landed.settle slot idle flight.method flight.environment
          exact ⟨_, _, _, same, .landed found slot later settled, kept⟩
  | collect object =>
      simp only [Process.step] at steps
      split at steps
      · next slot =>
          obtain ⟨world, freed, kept⟩ := inv.collect slot exclusive
          rw [freed] at steps
          cases steps
          exact ⟨_, _, _, rfl, .collected slot freed, kept⟩
      · cases steps

theorem Advances.serial {event : Event μ kind θ} {next : Process σ μ kind p θ}
    {ended : Option (Ended μ kind)} {new : (object : ι) → Contents (σ (kind object))}
    (advances : Advances classes process contents event next ended new)
    {trace : List (Ended μ kind)}
    (serial : Serial (answers classes kind) (fun _ => none) trace contents) :
    Serial (answers classes kind) (fun _ => none) (trace ++ ended.toList) new := by
  cases advances with
  | ended => exact .step serial _ rfl
  | landed => exact .step serial _ rfl
  | _ =>
      rw [Option.toList_none, List.append_nil]
      exact serial

/--
**The run rule**: a process is serial if what is known of it, and is kept by each of its
steps, makes every event keep the rule for threads.
-/
theorem Runs.serial {allowed : Process σ μ kind p θ → Event μ kind θ → Prop}
    (known : Process σ μ kind p θ → ((object : ι) → Contents (σ (kind object))) → Prop)
    (initially : known (.start σ μ kind p θ) fun _ => none)
    (keeps : ∀ process contents event, Invariant classes process contents →
      known process contents → allowed process event → Exclusive process event ∧
        ∀ next ended new,
          Advances classes process contents event next ended new → known next new)
    {trace : List (Ended μ kind)} (runs : Runs classes allowed trace process) :
    ∃ contents, Serial (answers classes kind) (fun _ => none) trace contents ∧
      Invariant classes process contents ∧ known process contents := by
  induction runs with
  | start => exact ⟨_, .start, .start, initially⟩
  | step before allows moves ih =>
      obtain ⟨contents, serial, inv, knows⟩ := ih
      obtain ⟨exclusive, kept⟩ := keeps _ _ _ inv knows allows
      obtain ⟨next, ended, new, same, advances, after⟩ := inv.step exclusive moves
      cases same
      exact ⟨new, advances.serial serial, after, kept _ _ _ advances⟩

/-- Where every `initialize` makes the codec keep the lock, no thread releases it. -/
theorem Grounded.step (grounded : Grounded process contents)
    {good : (class_ : κ) → μ class_ → Prop}
    (kept : ∀ (class_ : κ) (method : μ class_) (contents : Contents (σ class_)) (env : Environment),
      good class_ method → contents.KeepsLock p →
        ((classes class_).observe method contents env).contents.KeepsLock p)
    {event : Event μ kind θ} (calls : event.Calls good) {next : Process σ μ kind p θ}
    {ended : Option (Ended μ kind)} {new : (object : ι) → Contents (σ (kind object))}
    (advances : Advances classes process contents event next ended new) : Grounded next new := by
  cases advances with
  | allocated slot => exact ⟨grounded.flights, grounded.keeps⟩
  | @departed _ object _ _ _ channel opened unlocked =>
      exact absurd (grounded.keeps object channel opened) unlocked
  | @ended _ object method env _ _ slot settled =>
      obtain ⟨_, _, _, _, rfl⟩ := settled
      refine ⟨grounded.flights, fun other => ?_⟩
      unfold answered
      by_cases same : other = object
      · subst same
        rw [Function.update_self]
        exact kept _ _ _ env calls (grounded.keeps _)
      · rw [Function.update_of_ne same]
        exact grounded.keeps other
  | @landed thread _ _ _ found =>
      rw [grounded.flights thread] at found
      cases found
  | collected slot freed => exact ⟨grounded.flights, grounded.keeps⟩

end Invariant

end RubyLzws.Ext
