import Mathlib.Tactic.Common
import Mathlib.Logic.Function.Basic

/-!
# Interleaved components

A family of components answers inputs one after another, each out of a state of its
own.  However the inputs to different components are interleaved, each of them answers
as if it were alone: what it answers depends on its own inputs only.
-/

namespace RubyLzws.Library.Interleaving

variable {ι : Type} {A I : ι → Type} {O : Type}

/-- How each component answers an input, and the state it is in afterwards. -/
abbrev Family (A I : ι → Type) (O : Type) := (component : ι) → I component → A component →
  O × A component

/-- An input to one of the components, with what was answered. -/
structure Entry (I : ι → Type) (O : Type) where
  component : ι
  input : I component
  output : O

/-- One component on its own: its answers to some inputs, and its state after them. -/
def alone (family : Family A I O) (component : ι) : List (I component) → A component →
    List O × A component
  | [], state => ([], state)
  | input :: inputs, state =>
      let answered := family component input state
      let rest := alone family component inputs answered.2
      (answered.1 :: rest.1, rest.2)

theorem alone_append (family : Family A I O) (component : ι) (first second : List (I component))
    (state : A component) :
    alone family component (first ++ second) state =
      let before := alone family component first state
      let after := alone family component second before.2
      (before.1 ++ after.1, after.2) := by
  induction first generalizing state with
  | nil => rfl
  | cons input first ih =>
      rw [List.cons_append, alone, ih]
      rfl

variable [DecidableEq ι]

/-- The entry, if it belongs to the component. -/
def Entry.at? (component : ι) (entry : Entry I O) : Option (I component × O) :=
  if same : entry.component = component then some (same ▸ entry.input, entry.output) else none

/-- The entries of a trace that belong to one component. -/
def own (component : ι) (trace : List (Entry I O)) : List (I component × O) :=
  trace.filterMap (Entry.at? component)

/-- What one component was given in a trace. -/
def inputs (component : ι) (trace : List (Entry I O)) : List (I component) :=
  (own component trace).map Prod.fst

/-- What one component answered in a trace. -/
def outputs (component : ι) (trace : List (Entry I O)) : List O :=
  (own component trace).map Prod.snd

theorem own_append_self (trace : List (Entry I O)) (entry : Entry I O) :
    own entry.component (trace ++ [entry]) =
      own entry.component trace ++ [(entry.input, entry.output)] := by
  simp [own, Entry.at?]

theorem own_append_other {component : ι} (trace : List (Entry I O)) {entry : Entry I O}
    (different : entry.component ≠ component) :
    own component (trace ++ [entry]) = own component trace := by
  simp [own, Entry.at?, different]

/--
A trace in which every entry was answered out of the state that the entries before it
have led its component to.
-/
inductive Serial (family : Family A I O) (start : (component : ι) → A component) :
    List (Entry I O) → ((component : ι) → A component) → Prop where
  | start : Serial family start [] start
  | step {trace : List (Entry I O)} {states : (component : ι) → A component}
      (before : Serial family start trace states) (entry : Entry I O)
      (answered : entry.output = (family entry.component entry.input
        (states entry.component)).1) :
      Serial family start (trace ++ [entry])
        (Function.update states entry.component
          (family entry.component entry.input (states entry.component)).2)

variable {family : Family A I O} {start states : (component : ι) → A component}
  {trace : List (Entry I O)}

/-- **In a serial trace every component answers as if it were alone.** -/
theorem Serial.alone (serial : Serial family start trace states) (component : ι) :
    alone family component (inputs component trace) (start component) =
      (outputs component trace, states component) := by
  induction serial with
  | start => rfl
  | @step trace states before entry answered ih =>
      unfold inputs outputs at ih ⊢
      by_cases same : entry.component = component
      · subst same
        rw [own_append_self, List.map_append, List.map_append, alone_append, ih,
          Function.update_self]
        simp [Interleaving.alone, answered]
      · rw [own_append_other trace same, Function.update_of_ne (Ne.symm same)]
        exact ih

end RubyLzws.Library.Interleaving
