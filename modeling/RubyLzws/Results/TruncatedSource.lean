import RubyLzws.Ext.StoredCodec
import RubyLzws.Ext.StringOutcome

/-!
# Decompressing a source that ends too early

`lzws_decompress` returns 0 where it cannot go on without more source, and the
string function takes any 0 for the end.  What the codec has not consumed by then
is dropped.
-/

namespace RubyLzws.Results.TruncatedSource

open Ext Library.Transducer Library.UnitMachine Library.Loop

variable {Q : Type} {p : Platform}

/-- Behind the last whole input unit of `source` some bytes are left, too few for the next one. -/
def EndsInsideUnit (machine : Machine Q Byte Byte DecompressorError) (start : Q)
    (source out : List Byte) : Prop :=
  ∃ last rest, LeadsTo machine start source out (.finished last rest) ∧ rest ≠ []

/-- A complete session leaves nothing just if the source does not end inside a unit. -/
theorem rest_eq_nil_iff {machine : Machine Q Byte Byte DecompressorError} {start last : Q}
    {source out rest : List Byte}
    (ends : Ends (native machine) .whole start source out (.finished last rest)) :
    rest = [] ↔ ∀ other, ¬ EndsInsideUnit machine start source other := by
  have leads := LeadsTo.of_ends ends fun impossible => by cases impossible
  constructor
  · rintro rfl other ⟨otherLast, otherRest, otherLeads, left⟩
    obtain ⟨_, same⟩ := leads.unique otherLeads
    cases same
    exact left rfl
  · intro whole
    by_contra left
    exact whole out ⟨last, rest, leads, left⟩

/-! ## Runs that meet a truncated source -/

section Runs

variable {codec : DecompressorCodec Q} {machine : Machine Q Byte Byte DecompressorError}

/-- The output of a loop fits the string it is in. -/
theorem destinationLength_le {buffers : Buffers Q p} {destinationBufferLength : Nat}
    (window : buffers.WindowIsTail destinationBufferLength) :
    buffers.destinationLength ≤ p.maxStringLength := by
  have tail := window.tail
  have bound := buffers.destinationValue.length_le
  rw [RString.length] at tail
  omega

/-- A resize to a length that a string may have succeeds in calm surroundings. -/
theorem shrink_calm (buffers : Buffers Q p)
    (fits : buffers.destinationLength ≤ p.maxStringLength) :
    ∃ after env, buffers.shrink .calm = (.ok after, env) ∧
      after.remainingSource = buffers.remainingSource := by
  have resized : lzwsExtResizeStringBuffer buffers.destinationValue buffers.destinationLength
      .calm = (.ok (buffers.destinationValue.resize buffers.destinationLength (fun _ => 0) fits),
        .calm) := by
    unfold lzwsExtResizeStringBuffer
    exact dif_pos ⟨rfl, fits⟩
  unfold Buffers.shrink
  rw [resized]
  exact ⟨_, _, rfl, rfl⟩

/-- One turn is enough where the window holds all of the output. -/
theorem decompress_of_leadsTo (units : codec.decompress = native machine) {start last : Q}
    {source out rest : List Byte}
    (leads : LeadsTo machine start source out (.finished last rest))
    (destinationValue : RString p) (room : out.length ≤ destinationValue.length) :
    ∃ buffers after, decompress codec 1 start source destinationValue destinationValue.length
        true .calm = some (.ok buffers, after) ∧ buffers.remainingSource = rest := by
  obtain ⟨status, _, left⟩ := leads.native_complete room
  rw [← units] at status left
  have window := Buffers.start_window start source destinationValue
  have turned : bufferedTurn true codec.decompress decompressResult destinationValue.length
      (.start start source destinationValue destinationValue.length, .calm) =
        .leave (.ok ((Buffers.start start source destinationValue destinationValue.length).counted
          codec.decompress), .calm) := by
    have held : gvlWrap p true .calm = (.nothing, .calm) := rfl
    rw [bufferedTurn, held]
    dsimp only [Buffers.start]
    rw [status]
    rfl
  have counted : ((Buffers.start start source destinationValue destinationValue.length).counted
      codec.decompress).WindowIsTail destinationValue.length := window.counted
  obtain ⟨buffers, after, shrunk, remaining⟩ := shrink_calm _ (destinationLength_le counted)
  refine ⟨buffers, after, ?_, ?_⟩
  · unfold decompress
    rw [run_leave turned]
    exact congrArg some shrunk
  · rw [remaining]
    exact left

/-- A string as long as a given output, but not empty. -/
theorem exists_room {out : List Byte} (fits : out.length ≤ p.maxStringLength) :
    ∃ destinationValue : RString p, 0 < destinationValue.length ∧
      out.length ≤ destinationValue.length := by
  have bound := p.maxStringLength_succ_eq
  have positive : 0 < p.fixnumBound := Nat.two_pow_pos _
  have fits' : max 1 out.length ≤ p.maxStringLength := by omega
  refine ⟨RString.empty.resize (max 1 out.length) (fun _ => 0) fits', ?_, ?_⟩
  · rw [RString.resize_length]
    exact Nat.lt_of_lt_of_le Nat.one_pos (Nat.le_max_left _ _)
  · rw [RString.resize_length]
    exact Nat.le_max_right _ _

/-- A run that returns has dropped nothing just if the source does not end inside a unit. -/
theorem decompress_consumes_iff (units : codec.decompress = native machine) {start : Q}
    {source : List Byte} {fuel : Nat} {destinationValue : RString p} {gvl : Bool}
    {env after : Environment} {buffers : Buffers Q p}
    (returned : decompress codec fuel start source destinationValue destinationValue.length gvl
      env = some (.ok buffers, after)) :
    buffers.remainingSource = [] ↔ ∀ out, ¬ EndsInsideUnit machine start source out := by
  cases decompress_result returned with
  | ok ends =>
      rw [units] at ends
      exact rest_eq_nil_iff ends

end Runs

/--
**When string decompression uses up its source.**  Let `lzws_decompress` read and
write in indivisible units.  No returning run of `decompress` on a source drops
bytes of it just if the source does not end inside an input unit, with a text
before it that a string can hold; every single run that returns drops nothing
just if the source does not end inside a unit; and so for the text that
`lzws_ext_decompress_string` returns.
-/
theorem string_decompress_consumes_iff_units_complete {codec : DecompressorCodec Q}
    {machine : Machine Q Byte Byte DecompressorError} (units : codec.decompress = native machine)
    (p : Platform) :
    (∀ start source,
      (∀ fuel (destinationValue : RString p) gvl env buffers after,
        0 < destinationValue.length →
        decompress codec fuel start source destinationValue destinationValue.length gvl env =
          some (.ok buffers, after) → buffers.remainingSource = []) ↔
      ∀ out, out.length ≤ p.maxStringLength → ¬ EndsInsideUnit machine start source out) ∧
    (∀ start source fuel (destinationValue : RString p) gvl env buffers after,
      decompress codec fuel start source destinationValue destinationValue.length gvl env =
        some (.ok buffers, after) →
      (buffers.remainingSource = [] ↔ ∀ out, ¬ EndsInsideUnit machine start source out)) ∧
    (∀ fuel (sourceValue : Value p) options env run text,
      lzwsExtDecompressString codec fuel sourceValue options env = some run →
      run.outcome = .ok text →
      ∃ source length gvl decompressorOptions start last rest,
        decompressStringArguments codec sourceValue options =
          .ok (source, length, gvl, decompressorOptions) ∧
        codec.getInitialState decompressorOptions = .ok start ∧
        Ends codec.decompress .whole start source.bytes text.bytes (.finished last rest) ∧
        (rest = [] ↔ ∀ out, ¬ EndsInsideUnit machine start source.bytes out)) := by
  refine ⟨?_, ?_, ?_⟩
  · intro start source
    constructor
    · rintro consumes out fits ⟨last, rest, leads, left⟩
      obtain ⟨destinationValue, positive, room⟩ := exists_room fits
      obtain ⟨buffers, after, returned, remaining⟩ :=
        decompress_of_leadsTo units leads destinationValue room
      exact left (remaining.symm.trans (consumes _ _ _ _ _ _ positive returned))
    · intro whole fuel destinationValue gvl env buffers after _ returned
      cases decompress_result returned with
      | ok ends =>
          rw [units] at ends
          by_contra left
          exact whole _ buffers.destinationValue.length_le
            ⟨_, _, LeadsTo.of_ends ends (fun impossible => by cases impossible), left⟩
  · intro start source fuel destinationValue gvl env buffers after returned
    exact decompress_consumes_iff units returned
  · intro fuel sourceValue options env run text executed outcome
    have result := lzwsExtDecompressString_result executed
    rw [outcome] at result
    generalize ended : (Except.ok text : Except Raised (RString p)) = left at result
    cases result with
    | refused => cases ended
    | noState => cases ended
    | noMemory => cases ended
    | @ended source length gvl decompressorOptions start exit resolved initial result calm =>
        cases result with
        | @ok buffers ends =>
            cases ended
            refine ⟨source, length, gvl, decompressorOptions, start, _, _, resolved, initial, ends,
              ?_⟩
            rw [units] at ends
            exact rest_eq_nil_iff ends
        | failed => cases ended
        | stalled => cases ended
        | noMemory => cases ended
        | raised => cases ended

/-- An archive of one byte is used up. -/
theorem string_decompress_consumes_iff_units_complete_archive :
    ∃ buffers after, decompress (p := .linux64) StoredCodec.decompressor 4 .header
        [0x1f, 0x9d, 0x90, 7] (.ofBytes [0, 0]) 2 true .calm =
          some (.ok buffers, after) ∧
      (buffers.remainingSource = [] ↔
        ∀ out, ¬ EndsInsideUnit StoredCodec.decompressing .header [0x1f, 0x9d, 0x90, 7] out) := by
  have found : returnedBytes (decompress (p := .linux64) StoredCodec.decompressor 4 .header
      [0x1f, 0x9d, 0x90, 7] (.ofBytes [0, 0]) 2 true .calm) = some [7] := by
    decide +kernel
  obtain ⟨buffers, after, returned, _⟩ := exists_of_returnedBytes found
  exact ⟨buffers, after, returned, (@string_decompress_consumes_iff_units_complete _
    StoredCodec.decompressor _ rfl .linux64).2.1 _ _ _ _ _ _ _ _ returned⟩

/-- The bytes that were dropped, where a run has ended by returning 0. -/
def droppedBytes : Option (Exit (Buffers Q p) × Environment) → Option (List Byte)
  | some (.ok buffers, _) => some buffers.remainingSource
  | _ => none

/--
The first byte of the magic header alone: the loop ends with the byte in hand, and
`lzws_ext_decompress_string` returns an empty text.
-/
theorem half_header_decompresses_to_nothing :
    (∃ buffers after, decompress (p := .linux64) StoredCodec.decompressor 4 .header [0x1f]
        (.ofBytes [0, 0]) 2 true .calm = some (.ok buffers, after) ∧
      buffers.remainingSource = [0x1f]) ∧
    ∃ run text, lzwsExtDecompressString (p := .linux64) StoredCodec.decompressor 4
        (.string (.ofBytes [0x1f])) (.hash (StoredCodec.options .linux64 2 true))
        .calm = some run ∧
      run.outcome = .ok text ∧ text.bytes = [] := by
  constructor
  · have found : droppedBytes (decompress (p := .linux64) StoredCodec.decompressor 4 .header
        [0x1f] (.ofBytes [0, 0]) 2 true .calm) = some [0x1f] := by
      decide +kernel
    unfold droppedBytes at found
    split at found
    · next buffers after returned => exact ⟨buffers, after, returned, Option.some.inj found⟩
    · cases found
  · have found : ((lzwsExtDecompressString (p := .linux64) StoredCodec.decompressor 4
        (.string (.ofBytes [0x1f])) (.hash (StoredCodec.options .linux64 2 true))
        .calm).bind fun run => run.outcome.toOption.map fun text => text.bytes) = some [] := by
      decide +kernel
    obtain ⟨run, executed, read⟩ := Option.bind_eq_some_iff.mp found
    obtain ⟨text, returned, empty⟩ := Option.map_eq_some_iff.mp read
    exact ⟨run, text, executed, ok_of_toOption returned, empty⟩

end RubyLzws.Results.TruncatedSource
