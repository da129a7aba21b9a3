import Mathlib.Tactic.Common
import Mathlib.Data.List.Infix

/-!
# Native transducers called over windows

A native transducer is a stateful function that is shown some source, is offered
a window of output, consumes a prefix of the one and fills a prefix of the other.
A session is what a caller makes of such calls: it shows the source again from
where the last call stopped and collects what each call wrote.  A transducer is
`Determined` when what its sessions emit and how they end depend on the source
alone, not on how windows (and, in `cut` mode, the source) were cut.
-/

namespace RubyLzws.Library.Transducer

/-- How a call ended. -/
inductive Status (ε : Type) where
  | ok
  | needsMore
  | error (code : ε)
  deriving DecidableEq, Repr

/--
The answer to one call: the next state, the consumed part of the `available`
source symbols, and the symbols written into a window of length `window`.
-/
structure Reply (σ β ε : Type) (available window : Nat) where
  state : σ
  consumed : Nat
  written : List β
  status : Status ε
  consumed_le : consumed ≤ available
  written_le : written.length ≤ window

/-- A native call; what it consumes and writes is bounded by its type. -/
abbrev Native (σ α β ε : Type) :=
  σ → (source : List α) → (window : Nat) → Reply σ β ε source.length window

/-- A native call that is shown no source. -/
abbrev Finish (σ β ε : Type) := σ → (window : Nat) → Reply σ β ε 0 window

variable {σ α β ε : Type}

/-- A call without source, seen as one that leaves every source untouched. -/
def Native.ofFinish (finish : Finish σ β ε) : Native σ α β ε := fun state _ window =>
  { finish state window with
    consumed := 0
    consumed_le := Nat.zero_le _ }

/-- A call that was shown nothing consumed nothing. -/
theorem Reply.consumed_zero {window : Nat} (reply : Reply σ β ε 0 window) :
    { reply with consumed := 0, consumed_le := Nat.zero_le _ } = reply := by
  cases reply with
  | mk state consumed written status consumed_le written_le =>
      cases Nat.eq_zero_of_le_zero consumed_le
      rfl

theorem Native.ofFinish_nil (finish : Finish σ β ε) (state : σ) (window : Nat) :
    Native.ofFinish finish state ([] : List α) window = finish state window :=
  Reply.consumed_zero _

@[simp]
theorem Native.ofFinish_consumed (finish : Finish σ β ε) (state : σ) (source : List α)
    (window : Nat) : (Native.ofFinish finish state source window).consumed = 0 := rfl

/-- Whether every call is shown the whole remaining source, or any prefix of it. -/
inductive Mode where
  | whole
  | cut
  deriving DecidableEq, Repr

/-- The answers after which a session makes another call. -/
def Mode.GoesOn (mode : Mode) (status : Status ε) : Prop :=
  status = .needsMore ∨ (mode = .cut ∧ status = .ok)

/--
`Session native mode start source out state rest`: calls from `start` emitted
`out`, reached `state` and left `rest` of `source`; none of them failed.
-/
inductive Session (native : Native σ α β ε) (mode : Mode) (start : σ) (source : List α) :
    List β → σ → List α → Prop where
  | start : Session native mode start source [] start source
  | call {out : List β} {state : σ} {shown later : List α} {window : Nat}
      (before : Session native mode start source out state (shown ++ later))
      (whole : mode = .whole → later = [])
      (goesOn : mode.GoesOn (native state shown window).status) :
      Session native mode start source (out ++ (native state shown window).written)
        (native state shown window).state
        (shown.drop (native state shown window).consumed ++ later)

/-- How a session ended: nothing more to do, or an error. -/
inductive Outcome (σ α ε : Type) where
  | finished (state : σ) (rest : List α)
  | failed (code : ε)

/-- What two sessions on the same source have to agree on. -/
inductive Verdict (α ε : Type) where
  | finished (rest : List α)
  | failed (code : ε)
  deriving DecidableEq, Repr

def Outcome.verdict : Outcome σ α ε → Verdict α ε
  | .finished _ rest => .finished rest
  | .failed code => .failed code

/--
Complete sessions.  In `cut` mode the source may be cut into no pieces at all,
so an empty source needs no call.
-/
inductive Ends (native : Native σ α β ε) (mode : Mode) (start : σ) (source : List α) :
    List β → Outcome σ α ε → Prop where
  | untouched (cut : mode = .cut) (empty : source = []) :
      Ends native mode start source [] (.finished start [])
  | finished {out : List β} {state : σ} {rest : List α} {window : Nat}
      (before : Session native mode start source out state rest)
      (ok : (native state rest window).status = .ok) :
      Ends native mode start source (out ++ (native state rest window).written)
        (.finished (native state rest window).state
          (rest.drop (native state rest window).consumed))
  | failed {out : List β} {state : σ} {shown later : List α} {window : Nat} {code : ε}
      (before : Session native mode start source out state (shown ++ later))
      (whole : mode = .whole → later = [])
      (error : (native state shown window).status = .error code) :
      Ends native mode start source (out ++ (native state shown window).written)
        (.failed code)

/-- One more call that is shown all that is left. -/
theorem Session.call_all {native : Native σ α β ε} {mode : Mode} {start : σ}
    {source : List α} {out : List β} {state : σ} {rest : List α} (window : Nat)
    (before : Session native mode start source out state rest)
    (goesOn : mode.GoesOn (native state rest window).status) :
    Session native mode start source (out ++ (native state rest window).written)
      (native state rest window).state
      (rest.drop (native state rest window).consumed) := by
  have reached : Session native mode start source (out ++ (native state rest window).written)
      (native state rest window).state (rest.drop (native state rest window).consumed ++ []) :=
    .call (by simpa using before) (fun _ => rfl) goesOn
  simpa using reached

/-- An error of a call that is shown all that is left. -/
theorem Ends.failed_all {native : Native σ α β ε} {mode : Mode} {start : σ}
    {source : List α} {out : List β} {state : σ} {rest : List α} {window : Nat} {code : ε}
    (before : Session native mode start source out state rest)
    (error : (native state rest window).status = .error code) :
    Ends native mode start source (out ++ (native state rest window).written) (.failed code) := by
  have split : Session native mode start source out state (rest ++ []) := by simpa using before
  exact .failed split (fun _ => rfl) error

/-- What is left is always a suffix of the source. -/
theorem Session.rest_suffix {native : Native σ α β ε} {mode : Mode} {start : σ}
    {source rest : List α} {out : List β} {state : σ}
    (session : Session native mode start source out state rest) : rest <:+ source := by
  induction session with
  | start => exact List.suffix_refl _
  | @call out state shown later window before _ _ ih =>
      have dropped : shown.drop (native state shown window).consumed ++ later <:+ shown ++ later := by
        obtain ⟨front, whole⟩ := List.drop_suffix (native state shown window).consumed shown
        exact ⟨front, by rw [← List.append_assoc, whole]⟩
      exact dropped.trans ih

/-- Showing everything is one way of cutting the source. -/
theorem Session.toCut {native : Native σ α β ε} {mode : Mode} {start : σ}
    {source rest : List α} {out : List β} {state : σ}
    (session : Session native mode start source out state rest) :
    Session native .cut start source out state rest := by
  induction session with
  | start => exact .start
  | call _ _ goesOn ih =>
      refine .call ih (fun impossible => by cases impossible) ?_
      cases goesOn with
      | inl more => exact .inl more
      | inr done => exact .inr ⟨rfl, done.2⟩

theorem Ends.toCut {native : Native σ α β ε} {mode : Mode} {start : σ} {source : List α}
    {out : List β} {outcome : Outcome σ α ε}
    (ends : Ends native mode start source out outcome) :
    Ends native .cut start source out outcome := by
  cases ends with
  | untouched _ empty => exact .untouched rfl empty
  | finished before ok => exact .finished before.toCut ok
  | failed before _ error => exact .failed before.toCut (fun impossible => by cases impossible) error

/-- A session on the first part of a source is one on the source. -/
theorem Session.extend {native : Native σ α β ε} {start state : σ} {source rest : List α}
    {out : List β} (session : Session native .cut start source out state rest) (more : List α) :
    Session native .cut start (source ++ more) out state (rest ++ more) := by
  induction session with
  | start => exact .start
  | @call out state shown later window before _ goesOn ih =>
      rw [List.append_assoc] at ih ⊢
      exact .call ih (fun impossible => by cases impossible) goesOn

/-- Where a part of a source ends without an error, a session on the source has come. -/
theorem Ends.session_extend {native : Native σ α β ε} {start state : σ} {source rest : List α}
    {out : List β} (ends : Ends native .cut start source out (.finished state rest))
    (more : List α) : Session native .cut start (source ++ more) out state (rest ++ more) := by
  cases ends with
  | untouched _ empty =>
      rw [empty]
      exact .start
  | finished before ok => exact (before.call_all _ (.inr ⟨rfl, ok⟩)).extend more

/-- An error on the first part of a source is one on the source. -/
theorem Ends.failed_extend {native : Native σ α β ε} {start : σ} {source : List α}
    {out : List β} {code : ε} (ends : Ends native .cut start source out (.failed code))
    (more : List α) : Ends native .cut start (source ++ more) out (.failed code) := by
  cases ends with
  | failed before _ error =>
      have extended := before.extend more
      rw [List.append_assoc] at extended
      exact .failed extended (fun impossible => by cases impossible) error

/-- Complete sessions that are shown everything are complete in either mode. -/
theorem Ends.ofWhole {native : Native σ α β ε} {start : σ} {source : List α} {out : List β}
    {outcome : Outcome σ α ε} (mode : Mode)
    (ends : Ends native .whole start source out outcome) :
    Ends native mode start source out outcome := by
  cases mode with
  | whole => exact ends
  | cut => exact ends.toCut

/-! ## Determined transducers -/

/-- All complete sessions emit the same in all and end with the same verdict. -/
def Agree {ν : Type} (ends : List β → ν → Prop) : Prop :=
  ∀ {first second left right}, ends first left → ends second right →
    first = second ∧ left = right

/--
`emits out`: some session has emitted `out` so far; `ends out verdict`: some
session emitted `out` in all and ended with `verdict`.  All complete sessions
agree, and every session stays on the way to what the complete ones emit.
-/
structure Determined {ν : Type} (emits : List β → Prop) (ends : List β → ν → Prop) : Prop where
  agree : Agree ends
  extends_to : ∀ {part all verdict}, emits part → ends all verdict → part <+: all

/-- What the sessions of `native` from `start` on `source` have emitted. -/
def Emits (native : Native σ α β ε) (mode : Mode) (start : σ) (source : List α)
    (out : List β) : Prop :=
  ∃ state rest, Session native mode start source out state rest

/-- How the sessions of `native` from `start` on `source` end. -/
def EndsWith (native : Native σ α β ε) (mode : Mode) (start : σ) (source : List α)
    (out : List β) (verdict : Verdict α ε) : Prop :=
  ∃ outcome, Ends native mode start source out outcome ∧ outcome.verdict = verdict

/-- `native`, started in `start`, depends on `source` only. -/
def DeterminedOn (native : Native σ α β ε) (mode : Mode) (start : σ) (source : List α) : Prop :=
  Determined (Emits native mode start source) (EndsWith native mode start source)

theorem Ends.endsWith {native : Native σ α β ε} {mode : Mode} {start : σ} {source : List α}
    {out : List β} {outcome : Outcome σ α ε}
    (ends : Ends native mode start source out outcome) :
    EndsWith native mode start source out outcome.verdict := ⟨outcome, ends, rfl⟩

/-- The error that a session ended with, if it ended with one. -/
def Verdict.code : Verdict α ε → Option ε
  | .finished _ => none
  | .failed code => some code

/-- What the sessions emit and the errors they end with depend on the source only. -/
def OutputDeterminedOn (native : Native σ α β ε) (mode : Mode) (start : σ) (source : List α) :
    Prop :=
  Determined (Emits native mode start source) fun out code =>
    ∃ verdict, EndsWith native mode start source out verdict ∧ verdict.code = code

/-- Agreeing on what is left, complete sessions agree on the error too. -/
theorem DeterminedOn.output {native : Native σ α β ε} {mode : Mode} {start : σ}
    {source : List α} (determined : DeterminedOn native mode start source) :
    OutputDeterminedOn native mode start source := by
  constructor
  · rintro first second left right ⟨verdict, ends, rfl⟩ ⟨verdict', ends', rfl⟩
    obtain ⟨same, rfl⟩ := determined.agree ends ends'
    exact ⟨same, rfl⟩
  · rintro part all code emits ⟨verdict, ends, rfl⟩
    exact determined.extends_to emits ends

/-- What a part of a source is made into, unless that fails, is on the way to the whole. -/
theorem OutputDeterminedOn.prefix_of_part {native : Native σ α β ε} {start : σ}
    {part more rest : List α} {out all : List β} {verdict : Verdict α ε}
    (determined : OutputDeterminedOn native .cut start (part ++ more))
    (ends : EndsWith native .cut start part out (.finished rest))
    (whole : EndsWith native .cut start (part ++ more) all verdict) : out <+: all := by
  obtain ⟨outcome, ends, same⟩ := ends
  cases outcome with
  | failed code => cases same
  | finished state left =>
      exact determined.extends_to ⟨state, left ++ more, ends.session_extend more⟩
        ⟨verdict, whole, rfl⟩

/-- Where a part of a source fails, the whole fails. -/
theorem OutputDeterminedOn.code_of_part {native : Native σ α β ε} {start : σ}
    {part more : List α} {out all : List β} {code : ε} {verdict : Verdict α ε}
    (determined : OutputDeterminedOn native .cut start (part ++ more))
    (ends : EndsWith native .cut start part out (.failed code))
    (whole : EndsWith native .cut start (part ++ more) all verdict) :
    verdict.code = some code := by
  obtain ⟨outcome, ends, same⟩ := ends
  cases outcome with
  | finished state left => cases same
  | failed other =>
      cases same
      have failed := (ends.failed_extend more).endsWith
      exact (determined.agree ⟨_, failed, rfl⟩ ⟨verdict, whole, rfl⟩).2.symm

/-! ## Feeding and then finishing -/

/-- A session of a pair of calls: all of the source is fed before finishing begins. -/
inductive PairSession (feed finish : Native σ α β ε) (mode : Mode) (start : σ)
    (source : List α) : List β → Prop where
  | feeding {out : List β} {state : σ} {rest : List α}
      (session : Session feed mode start source out state rest) :
      PairSession feed finish mode start source out
  | finishing {fed out : List β} {middle state : σ} {rest : List α}
      (complete : Ends feed mode start source fed (.finished middle []))
      (session : Session finish .whole middle [] out state rest) :
      PairSession feed finish mode start source (fed ++ out)

/-- A complete session of a pair of calls. -/
inductive PairEnds (feed finish : Native σ α β ε) (mode : Mode) (start : σ)
    (source : List α) : List β → Verdict α ε → Prop where
  | feedFailed {out : List β} {code : ε}
      (failure : Ends feed mode start source out (.failed code)) :
      PairEnds feed finish mode start source out (.failed code)
  | finished {fed out : List β} {middle : σ} {outcome : Outcome σ α ε}
      (complete : Ends feed mode start source fed (.finished middle []))
      (last : Ends finish .whole middle [] out outcome) :
      PairEnds feed finish mode start source (fed ++ out) outcome.verdict

theorem PairEnds.toCut {feed finish : Native σ α β ε} {mode : Mode} {start : σ}
    {source : List α} {out : List β} {verdict : Verdict α ε}
    (ends : PairEnds feed finish mode start source out verdict) :
    PairEnds feed finish .cut start source out verdict := by
  cases ends with
  | feedFailed failure => exact .feedFailed failure.toCut
  | finished complete last => exact .finished complete.toCut last

theorem PairEnds.ofWhole {feed finish : Native σ α β ε} {start : σ} {source : List α}
    {out : List β} {verdict : Verdict α ε} (mode : Mode)
    (ends : PairEnds feed finish .whole start source out verdict) :
    PairEnds feed finish mode start source out verdict := by
  cases mode with
  | whole => exact ends
  | cut => exact ends.toCut

theorem Emits.ofWhole {native : Native σ α β ε} {start : σ} {source : List α} {out : List β}
    (mode : Mode) (emits : Emits native .whole start source out) :
    Emits native mode start source out := by
  obtain ⟨state, rest, session⟩ := emits
  cases mode with
  | whole => exact ⟨state, rest, session⟩
  | cut => exact ⟨state, rest, session.toCut⟩

theorem PairSession.ofWhole {feed finish : Native σ α β ε} {start : σ} {source : List α}
    {out : List β} (mode : Mode) (session : PairSession feed finish .whole start source out) :
    PairSession feed finish mode start source out := by
  cases mode with
  | whole => exact session
  | cut =>
      cases session with
      | feeding session => exact .feeding session.toCut
      | finishing complete session => exact .finishing complete.toCut session

/-- The pair, started in `start`, depends on `source` only. -/
def PairDeterminedOn (feed finish : Native σ α β ε) (mode : Mode) (start : σ)
    (source : List α) : Prop :=
  Determined (PairSession feed finish mode start source)
    (PairEnds feed finish mode start source)

/-! ## Laws of single calls -/

/-- A call asks for more room only when its next unit of at most `units` symbols does not fit. -/
def UnitsAtMost (native : Native σ α β ε) (units : Nat) : Prop :=
  ∀ state source window, (native state source window).status = .needsMore →
    window < (native state source window).written.length + units

/-- A call reports success only with all of its source consumed. -/
def ConsumesAll (native : Native σ α β ε) : Prop :=
  ∀ state source window, (native state source window).status = .ok →
    (native state source window).consumed = source.length

/-- In a window that holds every unit, asking for more room means having written. -/
theorem UnitsAtMost.written_pos {native : Native σ α β ε} {units : Nat}
    (law : UnitsAtMost native units) {state : σ} {source : List α} {window : Nat}
    (enough : units ≤ window)
    (more : (native state source window).status = .needsMore) :
    0 < (native state source window).written.length := by
  have bound := law state source window more
  omega

theorem UnitsAtMost.not_stalled {native : Native σ α β ε} {units : Nat}
    (law : UnitsAtMost native units) {state : σ} {source : List α} {window : Nat}
    (enough : units ≤ window)
    (more : (native state source window).status = .needsMore) :
    (native state source window).written ≠ [] :=
  List.length_pos_iff.mp (law.written_pos enough more)

theorem ConsumesAll.drop_eq_nil {native : Native σ α β ε} (law : ConsumesAll native)
    {state : σ} {source : List α} {window : Nat}
    (ok : (native state source window).status = .ok) :
    source.drop (native state source window).consumed = [] :=
  List.drop_eq_nil_of_le (Nat.le_of_eq (law state source window ok).symm)

/-- Where success consumes the source, a complete session leaves nothing. -/
theorem ConsumesAll.rest_eq_nil {native : Native σ α β ε} (law : ConsumesAll native)
    {mode : Mode} {start last : σ} {source rest : List α} {out : List β}
    (ends : Ends native mode start source out (.finished last rest)) : rest = [] := by
  generalize outcomeEq : Outcome.finished (ε := ε) last rest = outcome at ends
  cases ends with
  | untouched =>
      cases outcomeEq
      rfl
  | finished _ ok =>
      cases outcomeEq
      exact law.drop_eq_nil ok
  | failed => cases outcomeEq

/-- Finishing is shown nothing, so it leaves nothing. -/
theorem Session.rest_nil {native : Native σ α β ε} {mode : Mode} {start : σ}
    {rest : List α} {out : List β} {state : σ}
    (session : Session native mode start [] out state rest) : rest = [] :=
  List.suffix_nil.mp session.rest_suffix

theorem Ends.rest_nil {native : Native σ α β ε} {mode : Mode} {start last : σ}
    {rest : List α} {out : List β}
    (ends : Ends native mode start [] out (.finished last rest)) : rest = [] := by
  cases ends with
  | untouched => rfl
  | finished before _ =>
      rw [before.rest_nil]
      exact List.drop_nil

/-- Finishing that succeeds leaves nothing of the source. -/
theorem PairEnds.rest_nil {feed finish : Native σ α β ε} {mode : Mode} {start : σ}
    {source rest : List α} {out : List β}
    (ends : PairEnds feed finish mode start source out (.finished rest)) : rest = [] := by
  generalize verdictEq : Verdict.finished rest = verdict at ends
  cases ends with
  | feedFailed => cases verdictEq
  | @finished fed out middle outcome complete last =>
      cases outcome with
      | failed code => cases verdictEq
      | finished state left =>
          cases verdictEq
          exact last.rest_nil

end RubyLzws.Library.Transducer
