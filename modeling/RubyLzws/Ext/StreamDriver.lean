import RubyLzws.Ext.Stream.Compressor
import RubyLzws.Ext.Stream.Decompressor

/-!
# Driving a native stream

How a caller gets a whole source through a native stream object: it writes the
bytes not yet consumed, goes on after the count it was told, reads the result
whenever the object needs more destination, and finishes.  Between native calls
the result may be read at any time, which is what a flush does.
-/

namespace RubyLzws.Ext

open Library.Transducer Library.Loop

variable {σ ε : Type} {p : Platform}

/-- How the driving of an object ends. -/
inductive Driven (σ : Type) (p : Platform) where
  | done (results : List Byte) (world : World σ p)
  | raised (exception : Raised) (world : World σ p)
  | undefined

/-- How many extra `read_result` calls stand before each native call, and before the last read. -/
structure Schedule where
  feeding : Nat → Nat
  finishing : Nat → Nat
  last : Nat

/-- Call `read_result` some times; what it returns is appended to the results so far. -/
def readTimes : Nat → List Byte → World σ p → Driven σ p
  | 0, results, world => .done results world
  | count + 1, results, world =>
      match readResultStream world with
      | .returned (.string result) world => readTimes count (results ++ result.bytes) world
      | .returned _ _ => .undefined
      | .raised exception world => .raised exception world
      | .undefined => .undefined

/-- The variables of a caller that feeds chunks. -/
structure Feeding (σ : Type) (p : Platform) where
  world : World σ p
  /-- What is left of the chunks written so far. -/
  unconsumed : List Byte
  chunks : List (List Byte)
  results : List Byte
  calls : Nat

/-- Write what is unconsumed once more, or together with the next chunk. -/
def feedTurn (call : Value p → World σ p → Effect σ p) (extra : Nat → Nat)
    (feeding : Feeding σ p) : Turn (Feeding σ p) (Driven σ p) :=
  match readTimes (extra feeding.calls) feeding.results feeding.world with
  | .done results world =>
      if fits : feeding.unconsumed.length ≤ p.maxStringLength then
        match call (.string ⟨feeding.unconsumed, fits⟩) world with
        | .returned (.progress bytes true) world =>
            match readTimes 1 results world with
            | .done results world =>
                .again { feeding with
                  world := world
                  unconsumed := feeding.unconsumed.drop bytes
                  results := results
                  calls := feeding.calls + 1 }
            | driven => .leave driven
        | .returned (.progress bytes false) world =>
            match feeding.chunks with
            | [] => .leave (.done results world)
            | chunk :: chunks =>
                .again {
                  world := world
                  unconsumed := feeding.unconsumed.drop bytes ++ chunk
                  chunks := chunks
                  results := results
                  calls := feeding.calls + 1 }
        | .returned _ _ => .leave .undefined
        | .raised exception world => .leave (.raised exception world)
        | .undefined => .leave .undefined
      else .leave (.raised .noMemoryError world)
  | driven => .leave driven

/-- Feed all chunks, with at most `fuel` native calls. -/
def feed (call : Value p → World σ p → Effect σ p) (extra : Nat → Nat) (fuel : Nat)
    (chunks : List (List Byte)) (world : World σ p) : Option (Driven σ p) :=
  match chunks with
  | [] => some (.done [] world)
  | chunk :: chunks => run (feedTurn call extra) fuel ⟨world, chunk, chunks, [], 0⟩

/-- The variables of a caller that finishes. -/
structure Finishing (σ : Type) (p : Platform) where
  world : World σ p
  results : List Byte
  calls : Nat

/-- Finish once more, unless the object needs no more destination. -/
def finishTurn (call : World σ p → Effect σ p) (extra : Nat → Nat)
    (finishing : Finishing σ p) : Turn (Finishing σ p) (Driven σ p) :=
  match readTimes (extra finishing.calls) finishing.results finishing.world with
  | .done results world =>
      match call world with
      | .returned (.needsMoreDestination true) world =>
          match readTimes 1 results world with
          | .done results world => .again ⟨world, results, finishing.calls + 1⟩
          | driven => .leave driven
      | .returned (.needsMoreDestination false) world => .leave (.done results world)
      | .returned _ _ => .leave .undefined
      | .raised exception world => .leave (.raised exception world)
      | .undefined => .leave .undefined
  | driven => .leave driven

/-- Write all chunks, finish, and read what is left; the results are concatenated. -/
def driveCompressor (codec : CompressorCodec σ) (schedule : Schedule) (fuel : Nat)
    (chunks : List (List Byte)) (world : World σ p) : Option (Driven σ p) :=
  match feed (lzwsExtCompress codec) schedule.feeding fuel chunks world with
  | none => none
  | some (.done results world) =>
      match run (finishTurn (lzwsExtCompressorFinish codec) schedule.finishing) fuel
          ⟨world, results, 0⟩ with
      | none => none
      | some (.done results world) => some (readTimes (schedule.last + 1) results world)
      | some driven => some driven
  | some driven => some driven

/-- Read all chunks, and then what is left. -/
def driveDecompressor (codec : DecompressorCodec σ) (schedule : Schedule) (fuel : Nat)
    (chunks : List (List Byte)) (world : World σ p) : Option (Driven σ p) :=
  match feed (lzwsExtDecompress codec) schedule.feeding fuel chunks world with
  | none => none
  | some (.done results world) => some (readTimes (schedule.last + 1) results world)
  | some driven => some driven

/-! ## Reading -/

/-- The surroundings interrupted the driving. -/
structure Disturbed (before : World σ p) (exception : Raised) : Prop where
  outside : exception.FromEnvironment
  unquiet : ¬ before.environment.Quiet

/-- What some `read_result` calls do: results and pending bytes together stay the same. -/
inductive ReadTimes (before : World σ p) (channel : Channel σ) (results : List Byte) :
    Nat → Driven σ p → Prop where
  | done {count : Nat} {more : List Byte} {after : World σ p} {next : Channel σ}
      (opens : after.Opens next) (state : next.state = channel.state)
      (capacity : next.capacity = channel.capacity)
      (bytes : more ++ next.pending = results ++ channel.pending)
      (grows : results.length ≤ more.length)
      (read : 0 < count ∨ channel.pending = [] → next.pending = [])
      (later : before.environment.Later after.environment) :
      ReadTimes before channel results count (.done more after)
  | disturbed {count : Nat} {exception : Raised} {after : World σ p}
      (disturbed : Disturbed before exception) :
      ReadTimes before channel results count (.raised exception after)

theorem readTimes_open {world : World σ p} {channel : Channel σ} (count : Nat)
    (results : List Byte) (opens : world.Opens channel) :
    ReadTimes world channel results count (readTimes count results world) := by
  induction count generalizing world channel results with
  | zero =>
      refine .done opens rfl rfl rfl (Nat.le_refl _) ?_ (.refl _)
      rintro (impossible | empty)
      · exact absurd impossible (Nat.lt_irrefl 0)
      · exact empty
  | succ count ih =>
      have result := readResultStream_open opens
      unfold readTimes
      generalize readResultStream world = effect at result ⊢
      cases result with
      | noMemory idle unquiet => exact .disturbed ⟨.inr rfl, unquiet⟩
      | @returned after result drained bytes =>
          have rest := ih (results ++ result.bytes) drained.opens
          simp only
          generalize readTimes count (results ++ result.bytes) after = driven at rest ⊢
          cases rest with
          | disturbed disturbed =>
              exact .disturbed ⟨disturbed.outside, fun calm =>
                disturbed.unquiet (calm.later drained.later)⟩
          | @done more last next opens state capacity same grows read later =>
              refine .done opens state capacity ?_ ?_ (fun _ => read (.inr rfl))
                (drained.later.trans later)
              · rw [same, bytes, Channel.drain_pending, List.append_nil]
              · rw [List.length_append] at grows
                omega

end RubyLzws.Ext
