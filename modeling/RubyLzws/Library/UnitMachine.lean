import RubyLzws.Library.Transducer

/-!
# Transducers made of indivisible units

A unit machine is a deterministic automaton whose every move emits one
indivisible output unit, takes one indivisible input unit, or fails.  Calling it
over a window runs moves until an output unit does not fit, an input unit is not
there, or a move fails.  Whatever the windows and cuts, all its sessions walk
along the one path the source determines.
-/

namespace RubyLzws.Library.UnitMachine

open Transducer

/-- One indivisible move: `read size` takes exactly `size` source symbols. -/
inductive Move (Q α β ε : Type) where
  | emit (unit : List β) (next : Q)
  | read (size : Nat) (next : List α → Q)
  | fail (code : ε)

/-- An automaton whose output and input units are not empty. -/
structure Machine (Q α β ε : Type) where
  move : Q → Move Q α β ε
  emit_ne_nil : ∀ {state : Q} {unit : List β} {next : Q},
    move state = .emit unit next → unit ≠ []
  read_pos : ∀ {state : Q} {size : Nat} {next : List α → Q},
    move state = .read size next → 0 < size

variable {Q α β ε : Type}

/-! ## Calls -/

/-- The answer of a call that could not move. -/
def idle {available window : Nat} (state : Q) (status : Status ε) : Reply Q β ε available window :=
  ⟨state, 0, [], status, Nat.zero_le _, Nat.zero_le _⟩

/-- The answer of a call that emitted `unit` before it went on. -/
def afterEmit {available window : Nat} (unit : List β) (fits : unit.length ≤ window)
    (reply : Reply Q β ε available (window - unit.length)) : Reply Q β ε available window where
  state := reply.state
  consumed := reply.consumed
  written := unit ++ reply.written
  status := reply.status
  consumed_le := reply.consumed_le
  written_le := by
    have bound := reply.written_le
    rw [List.length_append]
    omega

/-- The answer of a call that took `size` symbols before it went on. -/
def afterRead {source : List α} {window : Nat} (size : Nat) (there : size ≤ source.length)
    (reply : Reply Q β ε (source.drop size).length window) :
    Reply Q β ε source.length window where
  state := reply.state
  consumed := size + reply.consumed
  written := reply.written
  status := reply.status
  consumed_le := by
    have bound := Nat.le_trans reply.consumed_le (Nat.le_of_eq List.length_drop)
    omega
  written_le := reply.written_le

/-- Run at most `fuel` moves. -/
def runFuel (machine : Machine Q α β ε) : Nat → (state : Q) → (source : List α) →
    (window : Nat) → Reply Q β ε source.length window
  | 0, state, _, _ => idle state .ok
  | fuel + 1, state, source, window =>
      match machine.move state with
      | .emit unit next =>
          if fits : unit.length ≤ window then
            afterEmit unit fits (runFuel machine fuel next source (window - unit.length))
          else idle state .needsMore
      | .read size next =>
          if there : size ≤ source.length then
            afterRead size there
              (runFuel machine fuel (next (source.take size)) (source.drop size) window)
          else idle state .ok
      | .fail code => idle state (.error code)

/-- One call: every move takes or emits a symbol, so this fuel is never used up. -/
def native (machine : Machine Q α β ε) : Native Q α β ε := fun state source window =>
  runFuel machine (source.length + window + 1) state source window

/-! ## Paths -/

/-- Moves lead from `state` to `last`, take the source down to `rest` and emit `out`. -/
inductive Path (machine : Machine Q α β ε) : Q → List α → List β → Q → List α → Prop where
  | stay (state : Q) (source : List α) : Path machine state source [] state source
  | emit {state next last : Q} {unit out : List β} {source rest : List α}
      (moved : machine.move state = .emit unit next)
      (onward : Path machine next source out last rest) :
      Path machine state source (unit ++ out) last rest
  | read {state last : Q} {size : Nat} {next : List α → Q} {taken source rest : List α}
      {out : List β} (moved : machine.move state = .read size next)
      (exact_size : taken.length = size)
      (onward : Path machine (next taken) source out last rest) :
      Path machine state (taken ++ source) out last rest

/-- No move is possible: the next input unit is longer than what is left. -/
def Waiting (machine : Machine Q α β ε) (state : Q) (rest : List α) : Prop :=
  ∃ size next, machine.move state = .read size next ∧ rest.length < size

theorem Path.trans {machine : Machine Q α β ε} {first middle last : Q}
    {source between rest : List α} {left right : List β}
    (before : Path machine first source left middle between)
    (after : Path machine middle between right last rest) :
    Path machine first source (left ++ right) last rest := by
  induction before with
  | stay => exact after
  | emit moved _ ih =>
      rw [List.append_assoc]
      exact .emit moved (ih after)
  | read moved exact_size _ ih => exact .read moved exact_size (ih after)

/-- Source that comes later does not change the moves already possible. -/
theorem Path.append {machine : Machine Q α β ε} {state last : Q} {source rest : List α}
    {out : List β} (path : Path machine state source out last rest) (later : List α) :
    Path machine state (source ++ later) out last (rest ++ later) := by
  induction path with
  | stay => exact .stay _ _
  | emit moved _ ih => exact .emit moved ih
  | read moved exact_size _ ih =>
      rw [List.append_assoc]
      exact .read moved exact_size ih

theorem Path.eq_of_waiting {machine : Machine Q α β ε} {state last : Q} {source rest : List α}
    {out : List β} (path : Path machine state source out last rest)
    (waiting : Waiting machine state source) : out = [] ∧ last = state ∧ rest = source := by
  obtain ⟨size, next, moved, short⟩ := waiting
  cases path with
  | stay => exact ⟨rfl, rfl, rfl⟩
  | emit other _ => rw [moved] at other; cases other
  | read other exact_size _ =>
      rw [moved] at other
      cases other
      rw [List.length_append] at short
      omega

theorem Path.eq_of_fail {machine : Machine Q α β ε} {state last : Q} {source rest : List α}
    {out : List β} {code : ε} (path : Path machine state source out last rest)
    (failing : machine.move state = .fail code) : out = [] ∧ last = state ∧ rest = source := by
  cases path with
  | stay => exact ⟨rfl, rfl, rfl⟩
  | emit other _ => rw [failing] at other; cases other
  | read other _ _ => rw [failing] at other; cases other

/-- A path that ends where the machine waits has emitted the unit it starts with. -/
theorem Path.unit_le {machine : Machine Q α β ε} {state next last : Q} {source rest : List α}
    {unit out : List β} (path : Path machine state source out last rest)
    (waiting : Waiting machine last rest) (moved : machine.move state = .emit unit next) :
    unit.length ≤ out.length := by
  cases path with
  | stay =>
      obtain ⟨size, other, reading, _⟩ := waiting
      rw [moved] at reading
      cases reading
  | emit other _ =>
      rw [moved] at other
      cases other
      rw [List.length_append]
      exact Nat.le_add_right _ _
  | read other _ _ =>
      rw [moved] at other
      cases other

/-- Two paths from one place: one of them goes on where the other stops. -/
theorem Path.confluent {machine : Machine Q α β ε} {state one two : Q}
    {source oneRest twoRest : List α} {oneOut twoOut : List β}
    (first : Path machine state source oneOut one oneRest)
    (second : Path machine state source twoOut two twoRest) :
    (∃ more, twoOut = oneOut ++ more ∧ Path machine one oneRest more two twoRest) ∨
      ∃ more, oneOut = twoOut ++ more ∧ Path machine two twoRest more one oneRest := by
  induction first generalizing twoOut two twoRest with
  | stay => exact .inl ⟨twoOut, rfl, second⟩
  | @emit state next last unit out source rest moved onward ih =>
      cases second with
      | stay => exact .inr ⟨_, rfl, .emit moved onward⟩
      | emit other further =>
          rw [moved] at other
          cases other
          rcases ih further with ⟨more, same, path⟩ | ⟨more, same, path⟩
          · exact .inl ⟨more, by rw [same, List.append_assoc], path⟩
          · exact .inr ⟨more, by rw [same, List.append_assoc], path⟩
      | read other _ _ => rw [moved] at other; cases other
  | @read state last size next taken source rest out moved exact_size onward ih =>
      generalize whole : taken ++ source = all at second
      cases second with
      | stay => exact .inr ⟨_, rfl, whole ▸ .read moved exact_size onward⟩
      | emit other _ => rw [moved] at other; cases other
      | read other same_size further =>
          rw [moved] at other
          cases other
          obtain ⟨rfl, rfl⟩ := List.append_inj whole (exact_size.trans same_size.symm)
          exact ih further

/-! ## A call follows the path -/

/-- Why a call stopped where it stopped. -/
def Stopped (machine : Machine Q α β ε) (state : Q) (rest : List α) (room : Nat) :
    Status ε → Prop
  | .ok => Waiting machine state rest
  | .needsMore => ∃ unit next, machine.move state = .emit unit next ∧ room < unit.length
  | .error code => machine.move state = .fail code

theorem runFuel_spec (machine : Machine Q α β ε) {fuel : Nat} (state : Q) (source : List α)
    (window : Nat) (enough : source.length + window < fuel) :
    Path machine state source (runFuel machine fuel state source window).written
        (runFuel machine fuel state source window).state
        (source.drop (runFuel machine fuel state source window).consumed) ∧
      Stopped machine (runFuel machine fuel state source window).state
        (source.drop (runFuel machine fuel state source window).consumed)
        (window - (runFuel machine fuel state source window).written.length)
        (runFuel machine fuel state source window).status := by
  induction fuel generalizing state source window with
  | zero => exact absurd enough (Nat.not_lt_zero _)
  | succ fuel ih =>
      rw [runFuel]
      split
      · next unit next moved =>
          have nonempty := List.length_pos_iff.mpr (machine.emit_ne_nil moved)
          split
          · next fits =>
              obtain ⟨path, stopped⟩ := ih next source (window - unit.length) (by omega)
              refine ⟨.emit moved path, ?_⟩
              simp only [afterEmit, List.length_append, ← Nat.sub_sub]
              exact stopped
          · next tooLong =>
              exact ⟨.stay state source, unit, next, moved, Nat.lt_of_not_le tooLong⟩
      · next size next moved =>
          have positive := machine.read_pos moved
          split
          · next there =>
              have taken : (source.take size).length = size := List.length_take_of_le there
              obtain ⟨path, stopped⟩ := ih (next (source.take size)) (source.drop size) window (by
                rw [List.length_drop]
                omega)
              rw [List.drop_drop] at path stopped
              have whole := Path.read moved taken path
              rw [List.take_append_drop] at whole
              exact ⟨whole, stopped⟩
          · next missing =>
              exact ⟨.stay state source, size, next, moved, Nat.lt_of_not_le missing⟩
      · next code moved => exact ⟨.stay state source, moved⟩

theorem native_path (machine : Machine Q α β ε) (state : Q) (source : List α) (window : Nat) :
    Path machine state source (native machine state source window).written
      (native machine state source window).state
      (source.drop (native machine state source window).consumed) :=
  (runFuel_spec machine state source window (Nat.lt_succ_self _)).1

theorem native_stopped (machine : Machine Q α β ε) (state : Q) (source : List α) (window : Nat) :
    Stopped machine (native machine state source window).state
      (source.drop (native machine state source window).consumed)
      (window - (native machine state source window).written.length)
      (native machine state source window).status :=
  (runFuel_spec machine state source window (Nat.lt_succ_self _)).2

/-- A machine whose units are bounded asks for more room only when such a unit does not fit. -/
theorem native_unitsAtMost (machine : Machine Q α β ε) {units : Nat}
    (bounded : ∀ {state unit next}, machine.move state = .emit unit next → unit.length ≤ units) :
    UnitsAtMost (native machine) units := by
  intro state source window more
  have stopped := native_stopped machine state source window
  rw [more] at stopped
  obtain ⟨unit, next, moved, short⟩ := stopped
  have bound := bounded moved
  omega

/-- A machine that takes its source one symbol at a time is done only with all of it. -/
theorem native_consumesAll (machine : Machine Q α β ε)
    (single : ∀ {state size next}, machine.move state = .read size next → size = 1) :
    ConsumesAll (native machine) := by
  intro state source window ok
  have stopped := native_stopped machine state source window
  rw [ok] at stopped
  obtain ⟨size, next, moved, short⟩ := stopped
  have bound := (native machine state source window).consumed_le
  rw [single moved, List.length_drop] at short
  omega

/-! ## Sessions follow the path -/

theorem Path.of_session {machine : Machine Q α β ε} {mode : Mode} {start state : Q}
    {source rest : List α} {out : List β}
    (session : Session (native machine) mode start source out state rest) :
    Path machine start source out state rest := by
  induction session with
  | start => exact .stay _ _
  | call _ _ _ ih => exact ih.trans ((native_path machine _ _ _).append _)

/-- The path leads to where the outcome says, and the machine cannot move from there. -/
def LeadsTo (machine : Machine Q α β ε) (start : Q) (source : List α) (out : List β) :
    Outcome Q α ε → Prop
  | .finished state rest => Path machine start source out state rest ∧ Waiting machine state rest
  | .failed code => ∃ state rest, Path machine start source out state rest ∧
      machine.move state = .fail code

theorem LeadsTo.of_ends {machine : Machine Q α β ε} {mode : Mode} {start : Q}
    {source : List α} {out : List β} {outcome : Outcome Q α ε}
    (ends : Ends (native machine) mode start source out outcome)
    (still : mode = .cut → source = [] → Waiting machine start []) :
    LeadsTo machine start source out outcome := by
  cases ends with
  | untouched cut empty =>
      subst empty
      exact ⟨.stay _ _, still cut rfl⟩
  | @finished out state rest window before ok =>
      have stopped := native_stopped machine state rest window
      rw [ok] at stopped
      exact ⟨(Path.of_session before).trans (native_path machine _ _ _), stopped⟩
  | @failed out state shown later window code before _ error =>
      have stopped := native_stopped machine state shown window
      rw [error] at stopped
      exact ⟨_, _, (Path.of_session before).trans ((native_path machine _ _ _).append later),
        stopped⟩

/-- Where a path stops for good, every other path from the same place is on the way to it. -/
theorem Path.prefix_of_stuck {machine : Machine Q α β ε} {state last other : Q}
    {source rest otherRest : List α} {out otherOut : List β}
    (path : Path machine state source out last rest)
    (stuck : Waiting machine last rest ∨ ∃ code, machine.move last = .fail code)
    (another : Path machine state source otherOut other otherRest) :
    ∃ more, out = otherOut ++ more ∧ Path machine other otherRest more last rest := by
  rcases path.confluent another with ⟨more, same, onward⟩ | onward
  · have nothing : more = [] ∧ other = last ∧ otherRest = rest := by
      rcases stuck with waiting | ⟨code, failing⟩
      · exact onward.eq_of_waiting waiting
      · exact onward.eq_of_fail failing
    obtain ⟨rfl, rfl, rfl⟩ := nothing
    exact ⟨[], by simpa using same.symm, .stay _ _⟩
  · exact onward

/-- Two paths that stop for good stop at the same place with the same output. -/
theorem Path.unique_of_stuck {machine : Machine Q α β ε} {state last other : Q}
    {source rest otherRest : List α} {out otherOut : List β}
    (path : Path machine state source out last rest)
    (stuck : Waiting machine last rest ∨ ∃ code, machine.move last = .fail code)
    (another : Path machine state source otherOut other otherRest)
    (otherStuck : Waiting machine other otherRest ∨ ∃ code, machine.move other = .fail code) :
    out = otherOut ∧ last = other ∧ rest = otherRest := by
  obtain ⟨more, same, onward⟩ := path.prefix_of_stuck stuck another
  have nothing : more = [] ∧ last = other ∧ rest = otherRest := by
    rcases otherStuck with waiting | ⟨code, failing⟩
    · exact onward.eq_of_waiting waiting
    · exact onward.eq_of_fail failing
  exact ⟨by simpa [nothing.1] using same, nothing.2⟩

theorem not_waiting_of_fail {machine : Machine Q α β ε} {state : Q} {rest : List α} {code : ε}
    (failing : machine.move state = .fail code) : ¬ Waiting machine state rest := by
  rintro ⟨size, next, moved, _⟩
  rw [failing] at moved
  cases moved

section LeadsTo

variable {machine : Machine Q α β ε} {start : Q} {source : List α}

/-- A call whose window holds all of the output goes to the end of the path. -/
theorem LeadsTo.native_complete {out : List β} {last : Q} {rest : List α}
    (leads : LeadsTo machine start source out (.finished last rest)) {window : Nat}
    (room : out.length ≤ window) :
    (native machine start source window).status = .ok ∧
      (native machine start source window).written = out ∧
      source.drop (native machine start source window).consumed = rest := by
  obtain ⟨path, waiting⟩ := leads
  have stopped := native_stopped machine start source window
  obtain ⟨more, same, onward⟩ :=
    path.prefix_of_stuck (.inl waiting) (native_path machine start source window)
  cases status : (native machine start source window).status with
  | ok =>
      rw [status] at stopped
      obtain ⟨nothing, _, left⟩ := onward.eq_of_waiting stopped
      rw [nothing, List.append_nil] at same
      exact ⟨rfl, same.symm, left.symm⟩
  | needsMore =>
      -- A unit that did not fit would belong to the output, which does fit.
      rw [status] at stopped
      obtain ⟨unit, next, moved, short⟩ := stopped
      have bound := onward.unit_le waiting moved
      have total := congrArg List.length same
      rw [List.length_append] at total
      omega
  | error code =>
      rw [status] at stopped
      obtain ⟨_, sameState, _⟩ := onward.eq_of_fail stopped
      rw [sameState] at waiting
      exact absurd waiting (not_waiting_of_fail stopped)

/-- What came before is part of where a path leads. -/
theorem LeadsTo.after {middle : Q} {between : List α} {fed out : List β}
    {outcome : Outcome Q α ε} (before : Path machine start source fed middle between)
    (leads : LeadsTo machine middle between out outcome) :
    LeadsTo machine start source (fed ++ out) outcome := by
  cases outcome with
  | finished state rest => exact ⟨before.trans leads.1, leads.2⟩
  | failed code =>
      obtain ⟨state, rest, path, failing⟩ := leads
      exact ⟨state, rest, before.trans path, failing⟩

/-- Where two paths lead that both lead to the end, they lead to the same end. -/
theorem LeadsTo.unique {first second : List β} {left right : Outcome Q α ε}
    (one : LeadsTo machine start source first left)
    (two : LeadsTo machine start source second right) :
    first = second ∧ left = right := by
  cases left with
  | finished oneState oneRest =>
      cases right with
      | finished twoState twoRest =>
          obtain ⟨same, rfl, rfl⟩ := one.1.unique_of_stuck (.inl one.2) two.1 (.inl two.2)
          exact ⟨same, rfl⟩
      | failed code =>
          obtain ⟨state, rest, path, failing⟩ := two
          obtain ⟨_, rfl, rfl⟩ := one.1.unique_of_stuck (.inl one.2) path (.inr ⟨code, failing⟩)
          exact absurd one.2 (not_waiting_of_fail failing)
  | failed oneCode =>
      obtain ⟨oneState, oneRest, path, failing⟩ := one
      cases right with
      | finished twoState twoRest =>
          obtain ⟨_, rfl, rfl⟩ := path.unique_of_stuck (.inr ⟨oneCode, failing⟩) two.1 (.inl two.2)
          exact absurd two.2 (not_waiting_of_fail failing)
      | failed twoCode =>
          obtain ⟨twoState, twoRest, twoWay, twoFailing⟩ := two
          obtain ⟨same, rfl, _⟩ := path.unique_of_stuck (.inr ⟨oneCode, failing⟩) twoWay
            (.inr ⟨twoCode, twoFailing⟩)
          rw [failing] at twoFailing
          cases twoFailing
          exact ⟨same, rfl⟩

/-- Where the path leads to the end of the source, one call with enough room goes all the way. -/
theorem LeadsTo.ends {out : List β} {last : Q} {rest : List α}
    (leads : LeadsTo machine start source out (.finished last rest)) :
    Ends (native machine) .whole start source out (.finished last rest) := by
  have complete := leads.native_complete (Nat.le_refl out.length)
  have ends : Ends (native machine) .whole start source _ _ := .finished .start complete.1
  obtain ⟨written, reached⟩ :=
    (LeadsTo.of_ends ends fun impossible => by cases impossible).unique leads
  rw [written, reached] at ends
  exact ends

/-- Every path is on the way to where the path that leads to the end stops. -/
theorem LeadsTo.prefix_of {part all : List β} {outcome : Outcome Q α ε} {state : Q}
    {rest : List α} (leads : LeadsTo machine start source all outcome)
    (path : Path machine start source part state rest) : part <+: all := by
  cases outcome with
  | finished last lastRest =>
      obtain ⟨more, same, _⟩ := leads.1.prefix_of_stuck (.inl leads.2) path
      exact ⟨more, same.symm⟩
  | failed code =>
      obtain ⟨last, lastRest, way, failing⟩ := leads
      obtain ⟨more, same, _⟩ := way.prefix_of_stuck (.inr ⟨code, failing⟩) path
      exact ⟨more, same.symm⟩

end LeadsTo

/-- **Unit machines are determined.**  Sessions that cut an empty source into no
pieces at all need a start in which the machine waits for source. -/
theorem determinedOn (machine : Machine Q α β ε) (mode : Mode) (start : Q) (source : List α)
    (still : mode = .cut → source = [] → Waiting machine start []) :
    DeterminedOn (native machine) mode start source := by
  constructor
  · rintro first second left right ⟨one, oneEnds, rfl⟩ ⟨two, twoEnds, rfl⟩
    obtain ⟨same, rfl⟩ := (LeadsTo.of_ends oneEnds still).unique (LeadsTo.of_ends twoEnds still)
    exact ⟨same, rfl⟩
  · rintro part all verdict ⟨state, rest, session⟩ ⟨outcome, ends, rfl⟩
    exact (LeadsTo.of_ends ends still).prefix_of (Path.of_session session)

/-! ## Finishing -/

/--
The machine for finishing: where `machine` would read on, there is no more
source, and it continues from `atEnd` of its state instead.
-/
def finishing (machine : Machine Q α β ε) (atEnd : Q → Q) : Machine Q α β ε where
  move state :=
    match machine.move state with
    | .read _ _ => machine.move (atEnd state)
    | .emit unit next => .emit unit next
    | .fail code => .fail code
  emit_ne_nil := by
    intro state unit next moved
    split at moved
    · exact machine.emit_ne_nil moved
    · next emitted =>
        cases moved
        exact machine.emit_ne_nil emitted
    · cases moved
  read_pos := by
    intro state size next moved
    split at moved
    · exact machine.read_pos moved
    · cases moved
    · cases moved

/-- The call that finishes: the finishing machine is shown no source. -/
def finishCall (machine : Machine Q α β ε) (atEnd : Q → Q) : Finish Q β ε := fun state window =>
  native (finishing machine atEnd) state [] window

/-- On no source the finishing call is a call of the finishing machine. -/
theorem ofFinish_finishCall (machine : Machine Q α β ε) (atEnd : Q → Q) (state : Q)
    (window : Nat) :
    Native.ofFinish (finishCall machine atEnd) state ([] : List α) window =
      native (finishing machine atEnd) state [] window :=
  Native.ofFinish_nil _ state window

theorem finishing_emit {machine : Machine Q α β ε} {atEnd : Q → Q} {state next : Q}
    {unit : List β} (moved : machine.move state = .emit unit next) :
    (finishing machine atEnd).move state = .emit unit next := by
  simp only [finishing, moved]

theorem finishing_fail {machine : Machine Q α β ε} {atEnd : Q → Q} {state : Q} {code : ε}
    (failing : machine.move state = .fail code) :
    (finishing machine atEnd).move state = .fail code := by
  simp only [finishing, failing]

/-- Finishing emits no other units than the machine itself. -/
theorem finishing_units {machine : Machine Q α β ε} {atEnd : Q → Q} {units : Nat}
    (bounded : ∀ {state unit next}, machine.move state = .emit unit next → unit.length ≤ units)
    {state next : Q} {unit : List β}
    (moved : (finishing machine atEnd).move state = .emit unit next) : unit.length ≤ units := by
  simp only [finishing] at moved
  split at moved
  · exact bounded moved
  · next emitted =>
      cases moved
      exact bounded emitted
  · cases moved

theorem finishing_unitsAtMost {machine : Machine Q α β ε} {atEnd : Q → Q} {units : Nat}
    (bounded : ∀ {state unit next}, machine.move state = .emit unit next → unit.length ≤ units) :
    UnitsAtMost (Native.ofFinish (α := α) (finishCall machine atEnd)) units := by
  have law : UnitsAtMost (native (finishing machine atEnd)) units :=
    native_unitsAtMost _ (finishing_units bounded)
  exact fun state _ window => law state [] window

/-- What is emitted without source is emitted by finishing as well. -/
theorem Path.toFinishing {machine : Machine Q α β ε} (atEnd : Q → Q) {state last : Q}
    {source rest : List α} {out : List β} (path : Path machine state source out last rest)
    (nothing : source = []) : Path (finishing machine atEnd) state [] out last [] := by
  induction path with
  | stay => exact .stay _ _
  | emit moved _ ih => exact .emit (finishing_emit moved) (ih nothing)
  | read moved exact_size _ _ =>
      have positive := machine.read_pos moved
      have noneTaken := List.append_eq_nil_iff.mp nothing
      rw [noneTaken.1, List.length_nil] at exact_size
      omega

section Pair

variable {machine : Machine Q α β ε} {atEnd : Q → Q} {mode : Mode} {start : Q} {source : List α}

/-- Sessions that finish are sessions of the finishing machine. -/
theorem Path.of_finish_session {state : Q} {rest : List α} {out : List β}
    (session : Session (Native.ofFinish (finishCall machine atEnd)) .whole start [] out state
      rest) :
    Path (finishing machine atEnd) start [] out state [] ∧ rest = [] := by
  have nothing := session.rest_nil
  refine ⟨?_, nothing⟩
  induction session with
  | start => exact .stay _ _
  | @call out state shown later window before whole goesOn ih =>
      obtain ⟨rfl, rfl⟩ := List.append_eq_nil_iff.mp before.rest_nil
      have walked := native_path (finishing machine atEnd) state [] window
      rw [List.drop_nil] at walked
      rw [ofFinish_finishCall]
      exact (ih rfl).trans walked

theorem LeadsTo.of_finish_ends {out : List β} {outcome : Outcome Q α ε}
    (ends : Ends (Native.ofFinish (finishCall machine atEnd)) .whole start [] out outcome) :
    LeadsTo (finishing machine atEnd) start [] out outcome := by
  cases ends with
  | untouched cut _ => cases cut
  | @finished out state rest window before ok =>
      obtain ⟨path, rfl⟩ := Path.of_finish_session before
      rw [ofFinish_finishCall] at ok ⊢
      have walked := native_path (finishing machine atEnd) state [] window
      have stopped := native_stopped (finishing machine atEnd) state [] window
      rw [ok] at stopped
      exact ⟨path.trans walked, stopped⟩
  | @failed out state shown later window code before _ error =>
      obtain ⟨rfl, rfl⟩ := List.append_eq_nil_iff.mp before.rest_nil
      obtain ⟨path, _⟩ := Path.of_finish_session before
      rw [ofFinish_finishCall] at error ⊢
      have walked := native_path (finishing machine atEnd) state [] window
      have stopped := native_stopped (finishing machine atEnd) state [] window
      rw [error] at stopped
      exact ⟨_, _, path.trans walked, stopped⟩

/-- Where the path of the finishing machine leads to the end, one call goes all the way. -/
theorem LeadsTo.finish_ends {out : List β} {last : Q} {rest : List α}
    (leads : LeadsTo (finishing machine atEnd) start [] out (.finished last rest)) :
    Ends (Native.ofFinish (finishCall machine atEnd)) .whole start [] out
      (.finished last rest) := by
  have complete := leads.native_complete (Nat.le_refl out.length)
  rw [← ofFinish_finishCall] at complete
  have ends : Ends (Native.ofFinish (finishCall machine atEnd)) .whole start [] _ _ :=
    .finished .start complete.1
  obtain ⟨written, reached⟩ := (LeadsTo.of_finish_ends ends).unique leads
  rw [written, reached] at ends
  exact ends

/-- Feeding an empty source is already a path of the finishing machine. -/
theorem Path.of_feeding_nil {fed : List β} {middle : Q}
    (complete : Ends (native machine) mode start [] fed (.finished middle [])) :
    Path (finishing machine atEnd) start [] fed middle [] := by
  generalize reachedEq : Outcome.finished (ε := ε) middle [] = reached at complete
  cases complete with
  | untouched =>
      cases reachedEq
      exact .stay _ _
  | finished before ok =>
      obtain ⟨rfl, _⟩ := Outcome.finished.inj reachedEq
      exact ((Path.of_session before).trans (native_path machine _ _ _)).toFinishing atEnd rfl
  | failed => cases reachedEq

/-- With an empty source, feeding and finishing are one path of the finishing machine. -/
theorem LeadsTo.of_pair_ends {out : List β} {verdict : Verdict α ε}
    (ends : PairEnds (native machine) (Native.ofFinish (finishCall machine atEnd)) mode start []
      out verdict) :
    ∃ outcome, LeadsTo (finishing machine atEnd) start [] out outcome ∧
      outcome.verdict = verdict := by
  cases ends with
  | @feedFailed out code failure =>
      cases failure with
      | @failed before state shown later window _ session whole error =>
          obtain ⟨rfl, rfl⟩ := List.append_eq_nil_iff.mp session.rest_nil
          have walked := native_path machine state [] window
          have stopped := native_stopped machine state [] window
          rw [error] at stopped
          have path := ((Path.of_session session).trans walked).toFinishing atEnd rfl
          exact ⟨.failed code, ⟨_, _, path, finishing_fail stopped⟩, rfl⟩
  | finished complete last =>
      exact ⟨_, (LeadsTo.of_finish_ends last).after (Path.of_feeding_nil complete), rfl⟩

theorem Path.of_pair_session {out : List β}
    (session : PairSession (native machine) (Native.ofFinish (finishCall machine atEnd)) mode
      start [] out) :
    ∃ state, Path (finishing machine atEnd) start [] out state [] := by
  cases session with
  | feeding session => exact ⟨_, (Path.of_session session).toFinishing atEnd rfl⟩
  | finishing complete session =>
      exact ⟨_, (Path.of_feeding_nil complete).trans (Path.of_finish_session session).1⟩

/-- With an empty source, all of feeding and finishing follows one path. -/
theorem pairDeterminedOn_nil (machine : Machine Q α β ε) (atEnd : Q → Q) (mode : Mode)
    (start : Q) :
    PairDeterminedOn (native machine) (Native.ofFinish (finishCall machine atEnd)) mode start
      [] := by
  constructor
  · intro first second left right one two
    obtain ⟨oneOutcome, oneLeads, rfl⟩ := LeadsTo.of_pair_ends one
    obtain ⟨twoOutcome, twoLeads, rfl⟩ := LeadsTo.of_pair_ends two
    obtain ⟨same, rfl⟩ := oneLeads.unique twoLeads
    exact ⟨same, rfl⟩
  · intro part all verdict session ends
    obtain ⟨outcome, leads, rfl⟩ := LeadsTo.of_pair_ends ends
    obtain ⟨state, path⟩ := Path.of_pair_session session
    exact leads.prefix_of path

/-- Where there is source to feed, every feeding ends in one and the same way. -/
theorem feeding_unique (filled : source ≠ []) {first second : List β}
    {left right : Outcome Q α ε} (one : Ends (native machine) mode start source first left)
    (two : Ends (native machine) mode start source second right) :
    first = second ∧ left = right := by
  have still : mode = .cut → source = [] → Waiting machine start [] :=
    fun _ impossible => absurd impossible filled
  exact (LeadsTo.of_ends one still).unique (LeadsTo.of_ends two still)

/-- Where there is source to feed, every session of feeding is cut off from the one that ends. -/
theorem feeding_prefix (filled : source ≠ []) {part all : List β} {state : Q} {rest : List α}
    {outcome : Outcome Q α ε}
    (session : Session (native machine) mode start source part state rest)
    (ends : Ends (native machine) mode start source all outcome) : part <+: all := by
  have still : mode = .cut → source = [] → Waiting machine start [] :=
    fun _ impossible => absurd impossible filled
  exact (LeadsTo.of_ends ends still).prefix_of (Path.of_session session)

/-- With source to feed, feeding stops at one state, and finishing follows one path from there. -/
theorem pairDeterminedOn_of_ne_nil (machine : Machine Q α β ε) (atEnd : Q → Q) (mode : Mode)
    (start : Q) {source : List α} (filled : source ≠ []) :
    PairDeterminedOn (native machine) (Native.ofFinish (finishCall machine atEnd)) mode start
      source := by
  constructor
  · intro first second left right one two
    cases one with
    | feedFailed oneFailure =>
        cases two with
        | feedFailed twoFailure =>
            obtain ⟨same, outcome⟩ := feeding_unique filled oneFailure twoFailure
            cases outcome
            exact ⟨same, rfl⟩
        | finished complete _ => cases (feeding_unique filled oneFailure complete).2
    | finished oneComplete oneLast =>
        cases two with
        | feedFailed twoFailure => cases (feeding_unique filled oneComplete twoFailure).2
        | finished twoComplete twoLast =>
            obtain ⟨rfl, middle⟩ := feeding_unique filled oneComplete twoComplete
            cases middle
            obtain ⟨rfl, rfl⟩ := (LeadsTo.of_finish_ends oneLast).unique
              (LeadsTo.of_finish_ends twoLast)
            exact ⟨rfl, rfl⟩
  · intro part all verdict session ends
    cases ends with
    | feedFailed failure =>
        cases session with
        | feeding session => exact feeding_prefix filled session failure
        | finishing complete _ => cases (feeding_unique filled failure complete).2
    | finished complete last =>
        cases session with
        | feeding session =>
            have cutOff := feeding_prefix filled session complete
            exact cutOff.trans (List.prefix_append _ _)
        | finishing otherComplete session =>
            obtain ⟨rfl, middle⟩ := feeding_unique filled complete otherComplete
            cases middle
            have cutOff := (LeadsTo.of_finish_ends last).prefix_of (Path.of_finish_session session).1
            exact (List.prefix_append_right_inj _).mpr cutOff

/-- **Feeding and finishing a unit machine is determined**, however the source is cut. -/
theorem pairDeterminedOn (machine : Machine Q α β ε) (atEnd : Q → Q) (mode : Mode) (start : Q)
    (source : List α) :
    PairDeterminedOn (native machine) (Native.ofFinish (finishCall machine atEnd)) mode start
      source := by
  by_cases empty : source = []
  · subst empty
    exact pairDeterminedOn_nil machine atEnd mode start
  · exact pairDeterminedOn_of_ne_nil machine atEnd mode start empty

end Pair

end RubyLzws.Library.UnitMachine
