import RubyLzws.Ext.Threads
import Mathlib.Data.Fintype.Defs

/-!
# Processes

Stream objects of any classes and threads that call their methods, over one memory.
The objects of one class take their states from one arena, and all objects take their
destination buffers from another.  While the codec of one call runs without the lock,
every other thread may go on.
-/

namespace RubyLzws.Ext

open Library Library.Transducer Library.Interleaving

/-- What became of an object of Ruby. -/
inductive Slot where
  | unused
  | used (stream : NativeStream)
  | collected

/-- The struct of an object, as long as there is one. -/
def Slot.stream? : Slot → Option NativeStream
  | .used stream => some stream
  | _ => none

section Process

variable {κ ι θ : Type} (σ μ : κ → Type) (kind : ι → κ) (p : Platform)

/-- A call whose codec runs without the lock. -/
structure Flight where
  object : ι
  method : μ (kind object)
  /-- What the surroundings answer during this call. -/
  environment : Environment
  resume : World (σ (kind object)) p → Effect (σ (kind object)) p

/-- The memory, the objects, and the calls whose codecs run, by thread. -/
structure Process (θ : Type) where
  states : (class_ : κ) → Arena (σ class_)
  buffers : Arena (Block p)
  objects : ι → Slot
  flights : θ → Option (Flight σ μ kind p)

/-- What can happen next. -/
inductive Event (θ : Type) where
  /-- A new object. -/
  | allocate (object : ι)
  /-- A thread calls a method, which runs until it ends or releases the lock. -/
  | enter (thread : θ) (object : ι) (method : μ (kind object)) (environment : Environment)
  /-- The codec of a thread is done; the thread takes the lock and ends its call. -/
  | commit (thread : θ)
  /-- The garbage collector frees an object. -/
  | collect (object : ι)

/-- A call that has ended, with what the caller saw. -/
abbrev Ended := Entry (fun object : ι => μ (kind object) × Environment) Seen

/-- What an event leads to, where it can happen. -/
inductive Moved (θ : Type) where
  | undefined
  | moved (process : Process σ μ kind p θ) (ended : Option (Ended μ kind))

end Process

section Steps

variable {κ ι θ : Type} {σ μ : κ → Type} {kind : ι → κ} {p : Platform}

/-- No object yet. -/
def Process.start (σ μ : κ → Type) (kind : ι → κ) (p : Platform) (θ : Type) :
    Process σ μ kind p θ where
  states := fun _ => .empty
  buffers := .empty
  objects := fun _ => .unused
  flights := fun _ => none

/-- What the methods of one object read and change. -/
def Process.view (process : Process σ μ kind p θ) (object : ι) (env : Environment) :
    World (σ (kind object)) p where
  states := process.states (kind object)
  buffers := process.buffers
  object := (process.objects object).stream?
  environment := env
  calls := []

/-- No call on the object runs its codec at the moment. -/
def Process.Idle (process : Process σ μ kind p θ) (object : ι) : Prop :=
  ∀ thread flight, process.flights thread = some flight → flight.object ≠ object

/--
The rule for threads: no thread calls a method of an object while a call of another
thread on it runs.  The garbage collector keeps it too, as that thread holds the object.
-/
def Exclusive (process : Process σ μ kind p θ) : Event μ kind θ → Prop
  | .enter _ object _ _ => process.Idle object
  | .collect object => process.Idle object
  | _ => True

/-- The method that an event calls, if it calls one, is a `good` one. -/
def Event.Calls (good : (class_ : κ) → μ class_ → Prop) : Event μ kind θ → Prop
  | .enter _ object method _ => good (kind object) method
  | _ => True

instance (good : (class_ : κ) → μ class_ → Prop) [∀ class_, DecidablePred (good class_)] :
    DecidablePred (Event.Calls good : Event μ kind θ → Prop)
  | .allocate _ => .isTrue trivial
  | .enter _ object method _ => inferInstanceAs (Decidable (good (kind object) method))
  | .commit _ => .isTrue trivial
  | .collect _ => .isTrue trivial

section Decidable

variable [DecidableEq ι] [Fintype θ] (process : Process σ μ kind p θ)

instance (object : ι) : Decidable (process.Idle object) :=
  inferInstanceAs (Decidable (∀ thread, ∀ flight ∈ process.flights thread, flight.object ≠ object))

instance : DecidablePred (Exclusive process)
  | .allocate _ => .isTrue trivial
  | .enter _ object _ _ => inferInstanceAs (Decidable (process.Idle object))
  | .commit _ => .isTrue trivial
  | .collect object => inferInstanceAs (Decidable (process.Idle object))

end Decidable

/-- How objects answer on their own. -/
def answers (classes : (class_ : κ) → StreamClass (σ class_) p (μ class_)) (kind : ι → κ) :
    Family (fun object : ι => Contents (σ (kind object)))
      (fun object => μ (kind object) × Environment) Seen :=
  fun object input contents =>
    let observed := (classes (kind object)).observe input.1 contents input.2
    (observed.seen, observed.contents)

section Flights

variable [DecidableEq θ]

/-- The process after a thread has released the lock, or has taken it again. -/
def Process.setFlight (process : Process σ μ kind p θ) (thread : θ)
    (flight : Option (Flight σ μ kind p)) : Process σ μ kind p θ :=
  { process with flights := Function.update process.flights thread flight }

theorem Process.setFlight_self (process : Process σ μ kind p θ) (thread : θ)
    (flight : Option (Flight σ μ kind p)) :
    (process.setFlight thread flight).flights thread = flight := Function.update_self _ _ _

theorem Process.setFlight_other (process : Process σ μ kind p θ) {thread other : θ}
    (different : other ≠ thread) (flight : Option (Flight σ μ kind p)) :
    (process.setFlight thread flight).flights other = process.flights other :=
  Function.update_of_ne different _ _

end Flights

/-- What the calls of a list show, one after another on one object with nothing in between. -/
def solo {σ μ : Type} (call : μ → World σ p → Effect σ p) :
    List (μ × Environment) → World σ p → List (Option Seen)
  | [], _ => []
  | (method, env) :: inputs, world =>
      let effect := call method { world with environment := env }
      effect.seen? ::
        match effect.world? with
        | none => []
        | some next => solo call inputs next

variable [DecidableEq κ] [DecidableEq ι]

/-- The process after a step on one object. -/
def Process.put (process : Process σ μ kind p θ) (object : ι) (slot : Slot)
    (states : Arena (σ (kind object))) (buffers : Arena (Block p)) : Process σ μ kind p θ :=
  { process with
    states := Function.update process.states (kind object) states
    buffers := buffers
    objects := Function.update process.objects object slot }

theorem Process.put_objects_self (process : Process σ μ kind p θ) (object : ι) (slot : Slot)
    (states : Arena (σ (kind object))) (buffers : Arena (Block p)) :
    (process.put object slot states buffers).objects object = slot := Function.update_self _ _ _

theorem Process.put_objects_other (process : Process σ μ kind p θ) {object other : ι}
    (different : other ≠ object) (slot : Slot) (states : Arena (σ (kind object)))
    (buffers : Arena (Block p)) :
    (process.put object slot states buffers).objects other = process.objects other :=
  Function.update_of_ne different _ _

/-- The process after a call has ended. -/
def Process.settle (process : Process σ μ kind p θ) (object : ι) (method : μ (kind object))
    (env : Environment) (effect : Effect (σ (kind object)) p) : Moved σ μ kind p θ :=
  match effect.world?, effect.seen? with
  | some ⟨states, buffers, some stream, _, _⟩, some seen =>
      .moved (process.put object (.used stream) states buffers) (some ⟨object, (method, env), seen⟩)
  | _, _ => .undefined

variable [DecidableEq θ]

/-- What an event leads to; `none` is an event that cannot happen now. -/
def Process.step (classes : (class_ : κ) → StreamClass (σ class_) p (μ class_))
    (process : Process σ μ kind p θ) : Event μ kind θ → Option (Moved σ μ kind p θ)
  | .allocate object =>
      match process.objects object with
      | .unused => some (.moved (process.put object (.used .allocated)
          (process.states (kind object)) process.buffers) none)
      | _ => none
  | .enter thread object method env =>
      match process.flights thread, process.objects object with
      | none, .used _ =>
          match (classes (kind object)).enter method (process.view object env) with
          | .ended effect => some (process.settle object method env effect)
          | .released resume =>
              some (.moved (process.setFlight thread (some ⟨object, method, env, resume⟩)) none)
      | _, _ => none
  | .commit thread =>
      match process.flights thread with
      | none => none
      | some flight =>
          some ((process.setFlight thread none).settle
            flight.object flight.method flight.environment
            (flight.resume (process.view flight.object flight.environment)))
  | .collect object =>
      match process.objects object with
      | .used _ =>
          match freeStream (process.view object .calm) with
          | none => some .undefined
          | some world => some (.moved
              (process.put object .collected world.states world.buffers) none)
      | _ => none

/-- What happened in a process, all of it `allowed`: the calls that ended, and the process now. -/
inductive Runs (classes : (class_ : κ) → StreamClass (σ class_) p (μ class_))
    (allowed : Process σ μ kind p θ → Event μ kind θ → Prop) :
    List (Ended μ kind) → Process σ μ kind p θ → Prop where
  | start : Runs classes allowed [] (.start σ μ kind p θ)
  | step {trace : List (Ended μ kind)} {process next : Process σ μ kind p θ}
      {event : Event μ kind θ} {ended : Option (Ended μ kind)}
      (before : Runs classes allowed trace process) (allows : allowed process event)
      (moves : process.step classes event = some (.moved next ended)) :
      Runs classes allowed (trace ++ ended.toList) next

/-- Let the events of a list happen one after another, as far as they are `allowed`. -/
def Process.follow (classes : (class_ : κ) → StreamClass (σ class_) p (μ class_))
    (allowed : Process σ μ kind p θ → Event μ kind θ → Prop)
    [∀ process event, Decidable (allowed process event)] :
    List (Event μ kind θ) → Process σ μ kind p θ →
      Option (List (Ended μ kind) × Process σ μ kind p θ)
  | [], process => some ([], process)
  | event :: events, process =>
      if allowed process event then
        match process.step classes event with
        | some (.moved next ended) =>
            (next.follow classes allowed events).map fun (trace, last) =>
              (ended.toList ++ trace, last)
        | _ => none
      else none

theorem Runs.of_follow {classes : (class_ : κ) → StreamClass (σ class_) p (μ class_)}
    {allowed : Process σ μ kind p θ → Event μ kind θ → Prop}
    [∀ process event, Decidable (allowed process event)] {events : List (Event μ kind θ)}
    {trace rest : List (Ended μ kind)} {process last : Process σ μ kind p θ}
    (runs : Runs classes allowed trace process)
    (followed : process.follow classes allowed events = some (rest, last)) :
    Runs classes allowed (trace ++ rest) last := by
  induction events generalizing process trace rest with
  | nil =>
      cases followed
      rw [List.append_nil]
      exact runs
  | cons event events ih =>
      simp only [Process.follow] at followed
      split at followed
      · next allows =>
          split at followed
          · next next ended moves =>
              obtain ⟨⟨tail, final⟩, onward, same⟩ := Option.map_eq_some_iff.mp followed
              cases same
              rw [← List.append_assoc]
              exact ih (.step runs allows moves) onward
          · cases followed
      · cases followed

end Steps

end RubyLzws.Ext
