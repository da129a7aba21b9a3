import Mathlib.Algebra.Ring.Nat
import Mathlib.Tactic.Common

/-!
# Loops that leave by an explicit turn

A `while (true)` loop is a function saying what one turn does: go round again
with a new state, or leave with a result.  `run` executes at most `fuel` turns;
`Leaves` is the fuel-free account of the same executions, `visited` lists the states
in which their turns began, `Makes` gives both together, and the rules below carry
invariants, termination measures and costs over whole runs.
-/

namespace RubyLzws.Library.Loop

/-- What one turn of a loop decides. -/
inductive Turn (σ ρ : Type) where
  | again (state : σ)
  | leave (result : ρ)

variable {σ ρ : Type}

/-- Execute at most `fuel` turns; `none` means that the fuel ran out. -/
def run (turn : σ → Turn σ ρ) : Nat → σ → Option ρ
  | 0, _ => none
  | fuel + 1, state =>
      match turn state with
      | .again next => run turn fuel next
      | .leave result => some result

/-- The loop started in `state` leaves with `result` after finitely many turns. -/
inductive Leaves (turn : σ → Turn σ ρ) : σ → ρ → Prop where
  | leave {state : σ} {result : ρ} (last : turn state = .leave result) :
      Leaves turn state result
  | again {state next : σ} {result : ρ} (first : turn state = .again next)
      (rest : Leaves turn next result) : Leaves turn state result

theorem run_leave {turn : σ → Turn σ ρ} {state : σ} {result : ρ}
    (last : turn state = .leave result) (fuel : Nat) :
    run turn (fuel + 1) state = some result := by
  simp only [run, last]

theorem run_again {turn : σ → Turn σ ρ} {state next : σ}
    (first : turn state = .again next) (fuel : Nat) :
    run turn (fuel + 1) state = run turn fuel next := by
  simp only [run, first]

/-- A bounded execution that produced a result is a finite execution. -/
theorem Leaves.of_run {turn : σ → Turn σ ρ} {fuel : Nat} {state : σ} {result : ρ}
    (executed : run turn fuel state = some result) : Leaves turn state result := by
  induction fuel generalizing state with
  | zero => cases executed
  | succ fuel ih =>
      cases turned : turn state with
      | again next =>
          rw [run_again turned] at executed
          exact .again turned (ih executed)
      | leave last =>
          rw [run_leave turned] at executed
          cases executed
          exact .leave turned

/-- A finite execution is found by every large enough fuel. -/
theorem Leaves.run_eventually {turn : σ → Turn σ ρ} {state : σ} {result : ρ}
    (leaves : Leaves turn state result) :
    ∃ bound, ∀ fuel, bound ≤ fuel → run turn fuel state = some result := by
  induction leaves with
  | leave last =>
      refine ⟨1, fun fuel enough => ?_⟩
      obtain ⟨fuel, rfl⟩ := Nat.exists_eq_add_of_le' enough
      exact run_leave last fuel
  | again first rest ih =>
      obtain ⟨bound, found⟩ := ih
      refine ⟨bound + 1, fun fuel enough => ?_⟩
      obtain ⟨fuel, rfl⟩ := Nat.exists_eq_add_of_le' (Nat.le_trans (Nat.le_add_left 1 bound) enough)
      rw [run_again first]
      exact found fuel (Nat.le_of_succ_le_succ enough)

theorem Leaves.exists_run {turn : σ → Turn σ ρ} {state : σ} {result : ρ}
    (leaves : Leaves turn state result) : ∃ fuel, run turn fuel state = some result := by
  obtain ⟨bound, found⟩ := leaves.run_eventually
  exact ⟨bound, found bound (Nat.le_refl bound)⟩

/-- The invariant rule: what every turn preserves holds of the result. -/
theorem Leaves.invariant {turn : σ → Turn σ ρ} (inv : σ → Prop) (post : ρ → Prop)
    (again : ∀ state next, inv state → turn state = .again next → inv next)
    (leave : ∀ state result, inv state → turn state = .leave result → post result)
    {state : σ} {result : ρ} (leaves : Leaves turn state result) (initial : inv state) :
    post result := by
  induction leaves with
  | leave last => exact leave _ _ initial last
  | again first _ ih => exact ih (again _ _ initial first)

/-- The termination rule: a measure that every turn lowers under an invariant. -/
theorem Leaves.of_measure {turn : σ → Turn σ ρ} (inv : σ → Prop) (measure : σ → Nat)
    (again : ∀ state next, inv state → turn state = .again next →
      inv next ∧ measure next < measure state)
    {state : σ} (initial : inv state) : ∃ result, Leaves turn state result := by
  induction bound : measure state using Nat.strongRecOn generalizing state with
  | ind value ih =>
      cases turned : turn state with
      | leave result => exact ⟨result, .leave turned⟩
      | again next =>
          obtain ⟨kept, lower⟩ := again _ _ initial turned
          obtain ⟨result, rest⟩ := ih _ (bound ▸ lower) kept rfl
          exact ⟨result, .again turned rest⟩

/-- A result once found stays the same with more fuel. -/
theorem run_mono {turn : σ → Turn σ ρ} {fuel more : Nat} {state : σ} {result : ρ}
    (executed : run turn fuel state = some result) (enough : fuel ≤ more) :
    run turn more state = some result := by
  induction fuel generalizing more state with
  | zero => cases executed
  | succ fuel ih =>
      obtain ⟨more, rfl⟩ := Nat.exists_eq_add_of_le' (Nat.le_trans (Nat.le_add_left 1 fuel) enough)
      cases turned : turn state with
      | again next =>
          rw [run_again turned] at executed ⊢
          exact ih executed (Nat.le_of_succ_le_succ enough)
      | leave last =>
          rw [run_leave turned] at executed ⊢
          exact executed

/-! ## Two loops side by side -/

/-- What a turn decides, seen through maps of the states and of the results. -/
def Turn.map {σ' ρ' : Type} (view : σ → σ') (read : ρ → ρ') : Turn σ ρ → Turn σ' ρ'
  | .again state => .again (view state)
  | .leave result => .leave (read result)

/-- The simulation rule: turns that match as long as the first loop is left well. -/
theorem run_map {σ' ρ' : Type} {turn : σ → Turn σ ρ} {other : σ' → Turn σ' ρ'} (view : σ → σ')
    (read : ρ → ρ') (good : ρ → Prop)
    (turns : ∀ state, (∀ result, turn state = .leave result → good result) →
      other (view state) = (turn state).map view read)
    {fuel : Nat} {state : σ} {result : ρ} (executed : run turn fuel state = some result)
    (ends : good result) : run other fuel (view state) = some (read result) := by
  induction fuel generalizing state with
  | zero => cases executed
  | succ fuel ih =>
      have matched := turns state
      cases turned : turn state with
      | again next =>
          rw [turned] at matched
          rw [run_again turned] at executed
          rw [run_again (matched fun _ impossible => by cases impossible)]
          exact ih executed
      | leave last =>
          rw [turned] at matched
          rw [run_leave turned] at executed
          cases executed
          apply run_leave
          apply matched
          intro other same
          cases same
          exact ends

/-! ## The states on the way -/

/-- The states in which the turns of `run` begin, the first of them at the head. -/
def visited (turn : σ → Turn σ ρ) : Nat → σ → List σ
  | 0, _ => []
  | fuel + 1, state =>
      match turn state with
      | .again next => state :: visited turn fuel next
      | .leave _ => [state]

theorem visited_again {turn : σ → Turn σ ρ} {state next : σ}
    (first : turn state = .again next) (fuel : Nat) :
    visited turn (fuel + 1) state = state :: visited turn fuel next := by
  simp only [visited, first]

theorem visited_leave {turn : σ → Turn σ ρ} {state : σ} {result : ρ}
    (last : turn state = .leave result) (fuel : Nat) :
    visited turn (fuel + 1) state = [state] := by
  simp only [visited, last]

section Visited

variable {turn : σ → Turn σ ρ}

/-- What every turn preserves holds wherever a turn begins. -/
theorem visited_invariant (inv : σ → Prop)
    (again : ∀ state next, inv state → turn state = .again next → inv next) {fuel : Nat}
    {start : σ} (initial : inv start) : ∀ reached ∈ visited turn fuel start, inv reached := by
  induction fuel generalizing start with
  | zero => exact fun _ member => absurd member List.not_mem_nil
  | succ fuel ih =>
      intro reached member
      cases turned : turn start with
      | again next =>
          rw [visited_again turned, List.mem_cons] at member
          rcases member with rfl | later
          · exact initial
          · exact ih (again _ _ initial turned) reached later
      | leave result =>
          rw [visited_leave turned, List.mem_singleton] at member
          exact member ▸ initial

/-- What holds right after a turn, and is kept by all turns after it. -/
theorem visited_pairwise (inv : σ → Prop) (after : σ → σ → Prop)
    (again : ∀ state next, inv state → turn state = .again next → inv next)
    (begins : ∀ state next, inv state → turn state = .again next → after state next)
    (keeps : ∀ first state next, inv state → after first state → turn state = .again next →
      after first next) {fuel : Nat} {start : σ} (initial : inv start) :
    (visited turn fuel start).Pairwise after := by
  induction fuel generalizing start with
  | zero => exact .nil
  | succ fuel ih =>
      cases turned : turn start with
      | again next =>
          have kept := again _ _ initial turned
          rw [visited_again turned]
          refine .cons ?_ (ih kept)
          intro later member
          have both : ∀ reached ∈ visited turn fuel next, inv reached ∧ after start reached :=
            visited_invariant (fun reached => inv reached ∧ after start reached)
              (fun state next ⟨held, afterwards⟩ further =>
                ⟨again _ _ held further, keeps _ _ _ held afterwards further⟩)
              ⟨kept, begins _ _ initial turned⟩
          exact (both later member).2
      | leave result =>
          rw [visited_leave turned]
          exact List.pairwise_singleton _ _

/-- More fuel adds turns at the end. -/
theorem visited_front {fuel more : Nat} (enough : fuel ≤ more) (start : σ) :
    visited turn fuel start <+: visited turn more start := by
  induction fuel generalizing more start with
  | zero => exact List.nil_prefix
  | succ fuel ih =>
      obtain ⟨more, rfl⟩ := Nat.exists_eq_add_of_le' (Nat.le_trans (Nat.le_add_left 1 fuel) enough)
      cases turned : turn start with
      | again next =>
          rw [visited_again turned, visited_again turned]
          exact (List.prefix_cons_inj start).mpr (ih (Nat.le_of_succ_le_succ enough) next)
      | leave result =>
          have same := (visited_leave turned fuel).trans (visited_leave turned more).symm
          exact same ▸ List.prefix_rfl

/-- A loop from `start` makes turns in these states and is then left with `result`. -/
inductive Makes (turn : σ → Turn σ ρ) : σ → List σ → ρ → Prop where
  | leave {state : σ} {result : ρ} (last : turn state = .leave result) :
      Makes turn state [state] result
  | again {state next : σ} {states : List σ} {result : ρ} (first : turn state = .again next)
      (rest : Makes turn next states result) : Makes turn state (state :: states) result

/-- An execution that produced a result made the turns that were visited. -/
theorem Makes.of_run {fuel : Nat} {start : σ} {result : ρ}
    (executed : run turn fuel start = some result) :
    Makes turn start (visited turn fuel start) result := by
  induction fuel generalizing start with
  | zero => cases executed
  | succ fuel ih =>
      cases turned : turn start with
      | again next =>
          rw [run_again turned] at executed
          rw [visited_again turned]
          exact .again turned (ih executed)
      | leave left =>
          rw [run_leave turned] at executed
          cases executed
          rw [visited_leave turned]
          exact .leave turned

/-- Turns that lead to a result are found by every large enough fuel. -/
theorem Makes.run_eventually {start : σ} {states : List σ} {result : ρ}
    (made : Makes turn start states result) :
    ∃ bound, ∀ fuel, bound ≤ fuel →
      run turn fuel start = some result ∧ visited turn fuel start = states := by
  induction made with
  | leave last =>
      refine ⟨1, fun fuel enough => ?_⟩
      obtain ⟨fuel, rfl⟩ := Nat.exists_eq_add_of_le' enough
      exact ⟨run_leave last fuel, visited_leave last fuel⟩
  | again first rest ih =>
      obtain ⟨bound, found⟩ := ih
      refine ⟨bound + 1, fun fuel enough => ?_⟩
      obtain ⟨fuel, rfl⟩ := Nat.exists_eq_add_of_le' (Nat.le_trans (Nat.le_add_left 1 bound) enough)
      obtain ⟨executed, same⟩ := found fuel (Nat.le_of_succ_le_succ enough)
      rw [run_again first, visited_again first, same]
      exact ⟨executed, rfl⟩

/-- Once a result is found, more fuel makes no more turns. -/
theorem visited_mono {fuel more : Nat} {start : σ} {result : ρ}
    (executed : run turn fuel start = some result) (enough : fuel ≤ more) :
    visited turn more start = visited turn fuel start := by
  induction fuel generalizing more start with
  | zero => cases executed
  | succ fuel ih =>
      obtain ⟨more, rfl⟩ := Nat.exists_eq_add_of_le' (Nat.le_trans (Nat.le_add_left 1 fuel) enough)
      cases turned : turn start with
      | again next =>
          rw [run_again turned] at executed
          rw [visited_again turned, visited_again turned,
            ih executed (Nat.le_of_succ_le_succ enough)]
      | leave left => rw [visited_leave turned, visited_leave turned]

/-- The turn that leaves is the last of the turns. -/
theorem visited_of_run {fuel : Nat} {start : σ} {result : ρ}
    (executed : run turn fuel start = some result) :
    ∃ earlier last, visited turn fuel start = earlier ++ [last] ∧ turn last = .leave result := by
  induction fuel generalizing start with
  | zero => cases executed
  | succ fuel ih =>
      cases turned : turn start with
      | again next =>
          rw [run_again turned] at executed
          obtain ⟨earlier, last, whole, leaves⟩ := ih executed
          refine ⟨start :: earlier, last, ?_, leaves⟩
          rw [visited_again turned, whole, List.cons_append]
      | leave left =>
          rw [run_leave turned] at executed
          cases executed
          exact ⟨[], start, visited_leave turned fuel, turned⟩

/--
The cost rule: a turn pays its `cost`, and for what the potential rises by, out of the
potential it finds and its own weight.
-/
theorem visited_cost_le (inv : σ → Prop) (potential weight : σ → Nat) (cost : Nat)
    (again : ∀ state next, inv state → turn state = .again next →
      inv next ∧ potential next + cost ≤ potential state + weight state)
    (leave : ∀ state result, inv state → turn state = .leave result →
      cost ≤ potential state + weight state) {fuel : Nat} {start : σ} (initial : inv start) :
    (visited turn fuel start).length * cost ≤
      potential start + ((visited turn fuel start).map weight).sum := by
  induction fuel generalizing start with
  | zero =>
      rw [visited, List.length_nil, Nat.zero_mul]
      exact Nat.zero_le _
  | succ fuel ih =>
      cases turned : turn start with
      | again next =>
          obtain ⟨kept, pays⟩ := again _ _ initial turned
          have rest := ih kept
          rw [visited_again turned, List.length_cons, List.map_cons, List.sum_cons,
            Nat.add_one_mul]
          omega
      | leave result =>
          have pays := leave _ _ initial turned
          rw [visited_leave turned, List.length_singleton, List.map_singleton,
            List.sum_singleton, Nat.one_mul]
          exact pays

/-- The cost rule where every turn costs 1. -/
theorem visited_length_le (inv : σ → Prop) (potential weight : σ → Nat)
    (again : ∀ state next, inv state → turn state = .again next →
      inv next ∧ potential next + 1 ≤ potential state + weight state)
    (leave : ∀ state result, inv state → turn state = .leave result →
      1 ≤ potential state + weight state) {fuel : Nat} {start : σ} (initial : inv start) :
    (visited turn fuel start).length ≤
      potential start + ((visited turn fuel start).map weight).sum := by
  rw [← Nat.mul_one (visited turn fuel start).length]
  exact visited_cost_le inv potential weight 1 again leave initial

/-- A measure that no turn raises by more than its weight. -/
theorem visited_measure_le (inv : σ → Prop) (measure weight : σ → Nat)
    (again : ∀ state next, inv state → turn state = .again next →
      inv next ∧ measure next ≤ measure state + weight state)
    {fuel : Nat} {start : σ} (initial : inv start) :
    ∀ reached ∈ visited turn fuel start, measure reached + weight reached ≤
      measure start + ((visited turn fuel start).map weight).sum := by
  induction fuel generalizing start with
  | zero => exact fun _ member => absurd member List.not_mem_nil
  | succ fuel ih =>
      intro reached member
      cases turned : turn start with
      | again next =>
          obtain ⟨kept, grows⟩ := again _ _ initial turned
          rw [visited_again turned] at member ⊢
          rw [List.map_cons, List.sum_cons]
          rcases List.mem_cons.mp member with rfl | later
          · omega
          · have rest := ih kept reached later
            omega
      | leave result =>
          rw [visited_leave turned, List.mem_singleton] at member
          rw [member, visited_leave turned, List.map_singleton, List.sum_singleton]

end Visited

end RubyLzws.Library.Loop
