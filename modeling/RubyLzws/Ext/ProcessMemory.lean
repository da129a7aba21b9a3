import RubyLzws.Ext.ProcessRuns

/-!
# Who owns the memory of a process

`initialize` overwrites what an open object stored, and only then is memory lost.  Where
no open object is initialised again, everything that is live is stored by an object, in
whatever order the threads go on.
-/

namespace RubyLzws.Ext

open Library

/-! ## One object -/

section Object

/-- What is live after a step is stored by the object, or was live before and not its own. -/
def Accounts {κ : Type} (before : Arena κ) (owned : Option Nat) (after : Arena κ)
    (ownedAfter : Option Nat) : Prop :=
  ∀ handle, after.Live handle →
    ownedAfter = some handle ∨ before.Live handle ∧ owned ≠ some handle

theorem Accounts.refl {κ : Type} (arena : Arena κ) (owned : Option Nat) :
    Accounts arena owned arena owned := by
  intro handle live
  by_cases own : owned = some handle
  · exact .inl own
  · exact .inr ⟨live, own⟩

variable {σ : Type} {p : Platform} {before after : World σ p}

theorem owned_of_stored {state buffer : Option Nat}
    (stored : before.stored = some (state, buffer)) :
    ownedState before.object = state ∧ ownedBuffer before.object = buffer := by
  obtain ⟨stream, object, same⟩ := Option.map_eq_some_iff.mp stored
  cases same
  rw [object]
  exact ⟨rfl, rfl⟩

theorem SameHandles.owned_eq (same : SameHandles before after) :
    ownedState after.object = ownedState before.object ∧
      ownedBuffer after.object = ownedBuffer before.object := by
  have stored := same.stored
  cases found : before.stored with
  | none =>
      rw [found] at stored
      have nothing := Option.map_eq_none_iff.mp found
      have nothing' := Option.map_eq_none_iff.mp stored
      rw [nothing, nothing']
      exact ⟨rfl, rfl⟩
  | some handles =>
      rcases handles with ⟨state, buffer⟩
      rw [found] at stored
      obtain ⟨first, second⟩ := owned_of_stored found
      obtain ⟨first', second'⟩ := owned_of_stored stored
      exact ⟨first'.trans first.symm, second'.trans second.symm⟩

/-- A release accounts for the handles that were stored. -/
theorem Released.accounts {stateHandle bufferHandle : Nat} {ownedStateAfter : Option Nat}
    {ownedBufferAfter : Option Nat} (released : Released before stateHandle bufferHandle after) :
    Accounts before.states (ownedState before.object) after.states ownedStateAfter ∧
      Accounts before.buffers (ownedBuffer before.object) after.buffers ownedBufferAfter := by
  obtain ⟨state, buffer⟩ := owned_of_stored released.stored
  constructor
  · intro handle live
    obtain ⟨different, old⟩ := (released.states handle).mp live
    exact .inr ⟨old, fun own => different (Option.some.inj (own.symm.trans state))⟩
  · intro handle live
    obtain ⟨different, old⟩ := (released.buffers handle).mp live
    exact .inr ⟨old, fun own => different (Option.some.inj (own.symm.trans buffer))⟩

/-- Every step accounts for its handles, unless it opens an object that was open. -/
theorem LifeStep.accounts {opening : Prop} (step : LifeStep opening before after)
    (once : opening → before.Closes) :
    Accounts before.states (ownedState before.object) after.states (ownedState after.object) ∧
      Accounts before.buffers (ownedBuffer before.object) after.buffers
        (ownedBuffer after.object) := by
  cases step with
  | kept _ _ same =>
      obtain ⟨state, buffer⟩ := same.owned_eq
      rw [state, buffer]
      constructor
      · exact fun handle live => Accounts.refl _ _ handle ((same.states handle).mp live)
      · exact fun handle live => Accounts.refl _ _ handle ((same.buffers handle).mp live)
  | opened new opened =>
      obtain ⟨stream, object, noState, noBuffer⟩ := once new
      obtain ⟨state, buffer⟩ := owned_of_stored opened.stored
      rw [object, ownedState, ownedBuffer, Option.bind_some, Option.bind_some, noState, noBuffer,
        state, buffer]
      constructor
      · intro handle live
        rcases (opened.states handle).mp live with rfl | old
        · exact .inl rfl
        · exact .inr ⟨old, by simp⟩
      · intro handle live
        rcases (opened.buffers handle).mp live with rfl | old
        · exact .inl rfl
        · exact .inr ⟨old, by simp⟩
  | closed _ _ released => exact released.accounts

/-- So does the free function. -/
theorem freeStream_accounts (sound : before.Sound) (freed : freeStream before = some after) :
    Accounts before.states (ownedState before.object) after.states none ∧
      Accounts before.buffers (ownedBuffer before.object) after.buffers none := by
  rcases sound with ⟨channel, opens⟩ | closes
  · obtain ⟨_, _, world, same, released⟩ := freeStream_open opens
    rw [freed] at same
    cases same
    exact released.accounts
  · obtain ⟨world, same, states, buffers⟩ := freeStream_closed closes
    rw [freed] at same
    cases same
    obtain ⟨stream, object, noState, noBuffer⟩ := closes
    rw [states, buffers, object, ownedState, ownedBuffer, Option.bind_some, Option.bind_some,
      noState, noBuffer]
    exact ⟨.refl _ _, .refl _ _⟩

theorem World.Holds.sound {contents : Contents σ} (holds : before.Holds contents) :
    before.Sound := by
  cases contents with
  | none => exact .inr holds
  | some channel => exact .inl ⟨channel, holds⟩

/-- An object that stores no state is closed. -/
theorem World.Holds.closes {contents : Contents σ} (holds : before.Holds contents)
    (null : ownedState before.object = none) : before.Closes := by
  cases contents with
  | none => exact holds
  | some channel =>
      obtain ⟨stream, _, _, _, opened⟩ := holds
      rw [opened.object, ownedState, Option.bind_some, opened.statePtr] at null
      cases null

end Object

/-! ## All objects -/

section Ledger

variable {κ ι θ : Type} {σ μ : κ → Type} {kind : ι → κ} {p : Platform}

/-- An object stores this codec state. -/
def Process.StoresState (process : Process σ μ kind p θ) (object : ι) (handle : Nat) : Prop :=
  ownedState (process.objects object).stream? = some handle

/-- An object stores this destination buffer. -/
def Process.StoresBuffer (process : Process σ μ kind p θ) (object : ι) (handle : Nat) : Prop :=
  ownedBuffer (process.objects object).stream? = some handle

/-- Everything that is live is stored by an object of the right class. -/
structure Ledger (process : Process σ μ kind p θ) : Prop where
  states : ∀ class_ handle, (process.states class_).Live handle →
    ∃ object, kind object = class_ ∧ process.StoresState object handle
  buffers : ∀ handle, process.buffers.Live handle → ∃ object, process.StoresBuffer object handle

/-- No event initialises an open object. -/
def OpensOnce (classes : (class_ : κ) → StreamClass (σ class_) p (μ class_))
    (process : Process σ μ kind p θ) : Event μ kind θ → Prop
  | .enter _ object method _ => (classes (kind object)).initializes method = true →
      ownedState (process.objects object).stream? = none
  | _ => True

instance (classes : (class_ : κ) → StreamClass (σ class_) p (μ class_))
    (process : Process σ μ kind p θ) : DecidablePred (OpensOnce classes process)
  | .allocate _ => .isTrue trivial
  | .enter _ _ _ _ => inferInstanceAs (Decidable (_ = true → _ = none))
  | .commit _ => .isTrue trivial
  | .collect _ => .isTrue trivial

variable {classes : (class_ : κ) → StreamClass (σ class_) p (μ class_)}
  {process : Process σ μ kind p θ} {contents : (object : ι) → Contents (σ (kind object))}
  {object : ι}

theorem Ledger.start : Ledger (.start σ μ kind p θ) := by
  constructor
  · exact fun _ handle live => absurd live (Arena.not_live_empty handle)
  · exact fun handle live => absurd live (Arena.not_live_empty handle)

/-- No two objects of a class store the same state. -/
theorem Invariant.stores_state (inv : Invariant classes process contents) {handle : Nat}
    (stores : process.StoresState object handle) :
    (process.states (kind object)).Live handle ∧ ∀ other, kind other = kind object →
      process.StoresState other handle → other = object := by
  obtain ⟨stream, slot, stored⟩ := exists_of_ownedState stores
  refine ⟨(inv.used slot).state_live stored, fun other sameClass stores' => ?_⟩
  obtain ⟨stream', slot', stored'⟩ := exists_of_ownedState stores'
  by_contra different
  exact (inv.apart different slot' slot).states sameClass handle stored' stored

/-- No two objects store the same destination buffer. -/
theorem Invariant.stores_buffer (inv : Invariant classes process contents) {handle : Nat}
    (stores : process.StoresBuffer object handle) :
    process.buffers.Live handle ∧ ∀ other, process.StoresBuffer other handle → other = object := by
  obtain ⟨stream, slot, stored⟩ := exists_of_ownedBuffer stores
  refine ⟨(inv.used slot).buffer_live stored, fun other stores' => ?_⟩
  obtain ⟨stream', slot', stored'⟩ := exists_of_ownedBuffer stores'
  by_contra different
  exact (inv.apart different slot' slot).buffers handle stored' stored

variable [DecidableEq κ] [DecidableEq ι]

theorem Ledger.put (ledger : Ledger process) {slot : Slot} {states : Arena (σ (kind object))}
    {buffers : Arena (Block p)}
    (accountsStates : Accounts (process.states (kind object))
      (ownedState (process.objects object).stream?) states (ownedState slot.stream?))
    (accountsBuffers : Accounts process.buffers (ownedBuffer (process.objects object).stream?)
      buffers (ownedBuffer slot.stream?)) :
    Ledger (process.put object slot states buffers) := by
  have others : ∀ class_ handle, (process.states class_).Live handle →
      (class_ = kind object → ¬ process.StoresState object handle) →
        ∃ other, kind other = class_ ∧
          (process.put object slot states buffers).StoresState other handle := by
    intro class_ handle live foreign
    obtain ⟨owner, sameClass, stored⟩ := ledger.states class_ handle live
    refine ⟨owner, sameClass, ?_⟩
    unfold Process.StoresState
    rw [process.put_objects_other ?_]
    · exact stored
    · rintro rfl
      exact foreign sameClass.symm stored
  constructor
  · intro class_ handle live
    by_cases same : class_ = kind object
    · subst same
      simp only [Process.put, Function.update_self] at live
      rcases accountsStates handle live with own | ⟨old, foreign⟩
      · refine ⟨object, rfl, ?_⟩
        unfold Process.StoresState
        rw [process.put_objects_self]
        exact own
      · exact others _ handle old fun _ => foreign
    · simp only [Process.put, Function.update_of_ne same] at live
      exact others class_ handle live fun impossible => absurd impossible same
  · intro handle live
    rcases accountsBuffers handle live with own | ⟨old, foreign⟩
    · refine ⟨object, ?_⟩
      unfold Process.StoresBuffer
      rw [process.put_objects_self]
      exact own
    · obtain ⟨owner, stored⟩ := ledger.buffers handle old
      refine ⟨owner, ?_⟩
      unfold Process.StoresBuffer
      rw [process.put_objects_other ?_]
      · exact stored
      · rintro rfl
        exact foreign stored

/-- A call that does not initialise an open object keeps the ledger. -/
theorem Ledger.settle (ledger : Ledger process) {method : μ (kind object)} {env : Environment}
    {next : Process σ μ kind p θ} (holds : (process.view object env).Holds (contents object))
    (once : (classes (kind object)).initializes method = true →
      ownedState (process.objects object).stream? = none)
    (settled : Settled classes process object method env next) : Ledger next := by
  obtain ⟨world, stream, ends, assigned, rfl⟩ := settled
  obtain ⟨after, same, life⟩ := (classes (kind object)).step method _ holds.sound
  rw [ends] at same
  cases same
  obtain ⟨states, buffers⟩ := life.accounts fun opening =>
    holds.closes (once ((classes (kind object)).opening opening))
  rw [assigned] at states buffers
  exact ledger.put states buffers

variable [DecidableEq θ]

theorem Ledger.step (ledger : Ledger process) (inv : Invariant classes process contents)
    {event : Event μ kind θ} (once : OpensOnce classes process event)
    {next : Process σ μ kind p θ} {ended : Option (Ended μ kind)}
    {new : (object : ι) → Contents (σ (kind object))}
    (advances : Advances classes process contents event next ended new) : Ledger next := by
  cases advances with
  | allocated slot =>
      refine ledger.put ?_ ?_
      · rw [slot]
        exact .refl _ none
      · rw [slot]
        exact .refl _ none
  | departed => exact ⟨ledger.states, ledger.buffers⟩
  | ended slot settled => exact ledger.settle (inv.view_holds slot _) once settled
  | @landed thread flight _ stream found slot later settled =>
      have landed : Ledger (process.setFlight thread none) := ⟨ledger.states, ledger.buffers⟩
      refine landed.settle (inv.view_holds slot _) ?_ settled
      intro impossible
      rw [later] at impossible
      cases impossible
  | collected slot freed =>
      obtain ⟨states, buffers⟩ := freeStream_accounts (inv.view_holds slot _).sound freed
      exact ledger.put states buffers

end Ledger

end RubyLzws.Ext
