import Mathlib.Data.Seq.Basic
import RubyLzws.Library.UnitMachine

/-!
# Output made of indivisible units

In every state and for every source, a transducer whose output consists of indivisible
units has a sequence of units ahead of it, which need not end.  A call writes the
first of them for as long as they fit into the window, and asks for more room exactly if
the next one does not.  Nothing else is said about the transducer; unit machines are an
instance.
-/

namespace RubyLzws.Library.OutputUnits

open Stream' Transducer

variable {σ α β ε : Type}

/-! ## Calls -/

/--
A call wrote the first units of those `ahead` and left the `later` ones.  It asked for
more room exactly if the next of these is larger than what is left of the window; a call
that stopped for another reason left none.
-/
structure EmitsUnits {available window : Nat} (ahead later : Seq (List β))
    (reply : Reply σ β ε available window) : Prop where
  written : ∃ units, ahead = (Seq.ofList units).append later ∧ reply.written = units.flatten
  needsMore_iff : reply.status = .needsMore ↔
    ∃ unit, later.head = some unit ∧ window - reply.written.length < unit.length
  complete : reply.status ≠ .needsMore → later = .nil

/-- `ahead state source` are the units to emit in `state`, where `source` is what is left. -/
def HasUnits (native : Native σ α β ε) (ahead : σ → List α → Seq (List β)) : Prop :=
  ∀ state source window,
    EmitsUnits (ahead state source)
      (ahead (native state source window).state
        (source.drop (native state source window).consumed))
      (native state source window)

/-- The same for a call that is shown no source. -/
def FinishHasUnits (finish : Finish σ β ε) (ahead : σ → Seq (List β)) : Prop :=
  ∀ state window, EmitsUnits (ahead state) (ahead (finish state window).state) (finish state window)

theorem FinishHasUnits.ofFinish {finish : Finish σ β ε} {ahead : σ → Seq (List β)}
    (law : FinishHasUnits finish ahead) :
    HasUnits (Native.ofFinish (α := α) finish) fun state _ => ahead state := by
  intro state source window
  have single := law state window
  exact ⟨single.written, single.needsMore_iff, single.complete⟩

/-- A call that has nothing left to emit, and does not ask for more room. -/
theorem EmitsUnits.of_nil {available window : Nat} {ahead later : Seq (List β)}
    {reply : Reply σ β ε available window}
    (written : ∃ units, ahead = (Seq.ofList units).append later ∧ reply.written = units.flatten)
    (none : later = .nil) (stopped : reply.status ≠ .needsMore) :
    EmitsUnits ahead later reply := by
  refine ⟨written, ?_, fun _ => none⟩
  constructor
  · exact fun more => absurd more stopped
  · rintro ⟨_, head, _⟩
    rw [none, Seq.head_nil] at head
    cases head

/-! ## Progress -/

/-- `out` consists of the units of `whole` before `rest`, none longer than `limit`. -/
def Progress (limit : Nat) (whole rest : Seq (List β)) (out : List β) : Prop :=
  ∃ units, whole = (Seq.ofList units).append rest ∧ out = units.flatten ∧
    ∀ unit ∈ units, unit.length ≤ limit

/-- `unit` is the first of `whole` that is longer than `limit`, and `out` comes before it. -/
def FirstLonger (limit : Nat) (whole : Seq (List β)) (out unit : List β) : Prop :=
  ∃ later, Progress limit whole (.cons unit later) out ∧ limit < unit.length

section Progress

variable {limit : Nat} {whole rest : Seq (List β)} {out : List β}

theorem mem_append_iff {units : List (List β)} {later : Seq (List β)} {unit : List β} :
    unit ∈ (Seq.ofList units).append later ↔ unit ∈ units ∨ unit ∈ later := by
  induction units with
  | nil => simp
  | cons first units ih =>
      rw [Seq.ofList_cons, Seq.cons_append, Seq.mem_cons_iff, ih, List.mem_cons, or_assoc]

theorem Progress.start (limit : Nat) (whole : Seq (List β)) : Progress limit whole whole [] :=
  ⟨[], by simp, rfl, by simp⟩

/-- A call whose window is within the limit emits units within the limit. -/
theorem Progress.call {available window : Nat} {later : Seq (List β)}
    {reply : Reply σ β ε available window} (progress : Progress limit whole rest out)
    (emits : EmitsUnits rest later reply) (within : window ≤ limit) :
    Progress limit whole later (out ++ reply.written) := by
  obtain ⟨before, wholeEq, rfl, short⟩ := progress
  obtain ⟨units, restEq, writtenEq⟩ := emits.written
  refine ⟨before ++ units, ?_, ?_, ?_⟩
  · rw [wholeEq, restEq, Seq.ofList_append, Seq.append_assoc]
  · rw [writtenEq, List.flatten_append]
  · intro unit member
    rcases List.mem_append.mp member with old | new
    · exact short unit old
    · have part : unit.length ≤ reply.written.length := by
        rw [writtenEq]
        exact (List.sublist_flatten_of_mem new).length_le
      exact Nat.le_trans part (Nat.le_trans reply.written_le within)

/-- Where nothing is left, no unit was longer than the limit. -/
theorem Progress.complete (progress : Progress limit whole .nil out) :
    ∀ unit ∈ whole, unit.length ≤ limit := by
  obtain ⟨units, rfl, _, short⟩ := progress
  intro unit member
  rcases mem_append_iff.mp member with old | none
  · exact short unit old
  · exact absurd none (Seq.notMem_nil unit)

theorem FirstLonger.mem {unit : List β} (first : FirstLonger limit whole out unit) :
    unit ∈ whole := by
  obtain ⟨later, ⟨units, rfl, _⟩, _⟩ := first
  exact mem_append_iff.mpr (.inr (Seq.mem_cons unit later))

theorem FirstLonger.longer {unit : List β} (first : FirstLonger limit whole out unit) :
    limit < unit.length := first.choose_spec.2

/-- A call that gets nothing into a window as long as the limit has met too long a unit. -/
theorem Progress.stalled {available : Nat} {later : Seq (List β)}
    {reply : Reply σ β ε available limit} (progress : Progress limit whole rest out)
    (emits : EmitsUnits rest later reply) (more : reply.status = .needsMore)
    (nothing : reply.written = []) : ∃ unit, FirstLonger limit whole out unit := by
  obtain ⟨unit, head, short⟩ := emits.needsMore_iff.mp more
  have onward := progress.call emits (Nat.le_refl limit)
  rw [nothing, List.append_nil] at onward
  rw [nothing, List.length_nil, Nat.sub_zero] at short
  rw [Seq.head_eq_some head] at onward
  exact ⟨unit, later.tail, onward, short⟩

end Progress

/-! ## Unit machines -/

section Machine

open UnitMachine

variable {Q : Type}

/-- The next unit that a machine emits, with what is left behind it. -/
def nextUnit (machine : Machine Q α β ε) (state : Q) (source : List α) :
    Option (List β × Q × List α) :=
  match _ : machine.move state with
  | .emit unit next => some (unit, next, source)
  | .read size next =>
      if size ≤ source.length then nextUnit machine (next (source.take size)) (source.drop size)
      else none
  | .fail _ => none
termination_by source.length
decreasing_by
  have positive := machine.read_pos ‹machine.move state = .read size next›
  rw [List.length_drop]
  omega

/-- All units that a machine emits, one after the other. -/
def ahead (machine : Machine Q α β ε) (state : Q) (source : List α) : Seq (List β) :=
  Seq.corec (fun place : Q × List α => nextUnit machine place.1 place.2) (state, source)

variable {machine : Machine Q α β ε} {state : Q}

theorem nextUnit_emit {unit : List β} {next : Q} (moved : machine.move state = .emit unit next)
    (source : List α) : nextUnit machine state source = some (unit, next, source) := by
  rw [nextUnit]
  split
  · next other =>
      rw [moved] at other
      cases other
      rfl
  · next other => rw [moved] at other; cases other
  · next other => rw [moved] at other; cases other

theorem nextUnit_read {size : Nat} {next : List α → Q} {taken : List α}
    (moved : machine.move state = .read size next) (exact_size : taken.length = size)
    (source : List α) :
    nextUnit machine state (taken ++ source) = nextUnit machine (next taken) source := by
  rw [nextUnit]
  split
  · next other => rw [moved] at other; cases other
  · next other =>
      rw [moved] at other
      cases other
      have there : size ≤ (taken ++ source).length := by
        rw [List.length_append]
        omega
      rw [if_pos there, List.take_left' exact_size, List.drop_left' exact_size]
  · next other => rw [moved] at other; cases other

theorem nextUnit_waiting {source : List α} (waiting : Waiting machine state source) :
    nextUnit machine state source = none := by
  obtain ⟨size, next, moved, short⟩ := waiting
  rw [nextUnit]
  split
  · next other => rw [moved] at other; cases other
  · next other =>
      rw [moved] at other
      cases other
      exact if_neg (Nat.not_le_of_lt short)
  · rfl

theorem nextUnit_fail {code : ε} (failing : machine.move state = .fail code)
    (source : List α) : nextUnit machine state source = none := by
  rw [nextUnit]
  split
  · next other => rw [failing] at other; cases other
  · next other => rw [failing] at other; cases other
  · rfl

theorem ahead_nil {source : List α} (none : nextUnit machine state source = none) :
    ahead machine state source = .nil := Seq.corec_nil _ _ none

theorem ahead_cons {next : Q} {source rest : List α} {unit : List β}
    (found : nextUnit machine state source = some (unit, next, rest)) :
    ahead machine state source = .cons unit (ahead machine next rest) := Seq.corec_cons found

/-- A move that reads leaves the units ahead as they are. -/
theorem ahead_read {size : Nat} {next : List α → Q} {taken : List α}
    (moved : machine.move state = .read size next) (exact_size : taken.length = size)
    (source : List α) :
    ahead machine state (taken ++ source) = ahead machine (next taken) source := by
  have same := nextUnit_read moved exact_size source
  cases found : nextUnit machine (next taken) source with
  | none => rw [ahead_nil found, ahead_nil (same.trans found)]
  | some result => rw [ahead_cons found, ahead_cons (same.trans found)]

/-- Along a path, the units ahead become fewer by those the path emits. -/
theorem path_ahead {last : Q} {source rest : List α} {out : List β}
    (path : Path machine state source out last rest) :
    ∃ units, ahead machine state source = (Seq.ofList units).append (ahead machine last rest) ∧
      out = units.flatten := by
  induction path with
  | stay => exact ⟨[], by simp, rfl⟩
  | @emit _ _ _ unit _ _ _ moved _ ih =>
      obtain ⟨units, whole, rfl⟩ := ih
      refine ⟨unit :: units, ?_, List.flatten_cons.symm⟩
      rw [ahead_cons (nextUnit_emit moved _), whole, Seq.ofList_cons, Seq.cons_append]
  | read moved exact_size _ ih =>
      obtain ⟨units, whole, rfl⟩ := ih
      exact ⟨units, (ahead_read moved exact_size _).trans whole, rfl⟩

/-- **Unit machines emit units.** -/
theorem native_hasUnits (machine : Machine Q α β ε) :
    HasUnits (native machine) (ahead machine) := by
  intro state source window
  have written := path_ahead (native_path machine state source window)
  have stopped := native_stopped machine state source window
  generalize source.drop (native machine state source window).consumed = rest
    at written stopped ⊢
  cases status : (native machine state source window).status with
  | ok =>
      rw [status] at stopped
      exact .of_nil written (ahead_nil (nextUnit_waiting stopped)) (by rw [status]; simp)
  | needsMore =>
      rw [status] at stopped
      obtain ⟨unit, next, moved, short⟩ := stopped
      refine ⟨written, ?_, fun impossible => absurd status impossible⟩
      rw [ahead_cons (nextUnit_emit moved rest), Seq.head_cons]
      exact ⟨fun _ => ⟨unit, rfl, short⟩, fun _ => status⟩
  | error code =>
      rw [status] at stopped
      exact .of_nil written (ahead_nil (nextUnit_fail stopped rest)) (by rw [status]; simp)

/-- A machine that finishes emits the units of the machine for finishing. -/
theorem finishCall_hasUnits (machine : Machine Q α β ε) (atEnd : Q → Q) :
    FinishHasUnits (finishCall machine atEnd) fun state =>
      ahead (finishing machine atEnd) state [] := by
  intro state window
  have law := native_hasUnits (finishing machine atEnd) state [] window
  rw [List.drop_nil] at law
  exact law

theorem exists_move_of_nextUnit {source rest : List α} {unit : List β} {next : Q}
    (found : nextUnit machine state source = some (unit, next, rest)) :
    ∃ last, machine.move last = .emit unit next := by
  induction state, source using nextUnit.induct machine with
  | case1 state source unit next moved =>
      rw [nextUnit_emit moved] at found
      cases found
      exact ⟨state, moved⟩
  | case2 state source size next moved there ih =>
      apply ih
      rw [← nextUnit_read moved (List.length_take_of_le there), List.take_append_drop]
      exact found
  | case3 state source size next moved missing =>
      rw [nextUnit_waiting ⟨size, next, moved, Nat.lt_of_not_le missing⟩] at found
      cases found
  | case4 state source code failing =>
      rw [nextUnit_fail failing] at found
      cases found

/-- Every unit ahead is the unit of a move. -/
theorem exists_move_of_mem_ahead {source : List α} {unit : List β}
    (member : unit ∈ ahead machine state source) :
    ∃ last next, machine.move last = .emit unit next := by
  obtain ⟨index, found⟩ := Seq.mem_iff_exists_get?.mp member
  induction index generalizing state source with
  | zero =>
      cases first : nextUnit machine state source with
      | none =>
          rw [ahead_nil first] at found
          cases found
      | some result =>
          rw [ahead_cons first, Seq.get?_cons_zero] at found
          cases found
          obtain ⟨last, moved⟩ := exists_move_of_nextUnit first
          exact ⟨last, _, moved⟩
  | succ index ih =>
      cases first : nextUnit machine state source with
      | none =>
          rw [ahead_nil first] at found
          cases found
      | some result =>
          rw [ahead_cons first, Seq.get?_cons_succ] at found
          exact ih (Seq.get?_mem found.symm) found

end Machine

end RubyLzws.Library.OutputUnits
