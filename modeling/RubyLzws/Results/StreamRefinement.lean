import RubyLzws.Ext.StreamContents

/-!
# Stream objects refine their contents

Whatever methods are called on a native object, in whatever order and surroundings, the
caller sees what an object without pointers would show: nothing of the handles, of the
cursor or of an earlier life of the object comes through.
-/

namespace RubyLzws.Results.StreamRefinement

open Ext

variable {σ τ : Type}

/--
**The native classes refine the machines on contents.**  No sequence of methods is ever
undefined, and each call of it ends as it does without pointers.
-/
theorem native_streams_refine_contents (compressor : CompressorCodec σ)
    (decompressor : DecompressorCodec τ) (p : Platform) :
    RefinesContents (p := p) (CompressorMethod.call compressor)
        (CompressorMethod.observe compressor) ∧
      RefinesContents (p := p) (DecompressorMethod.call decompressor)
        (DecompressorMethod.observe decompressor) := by
  constructor
  · exact refinesContents fun method {_ _} => method.simulates compressor
  · exact refinesContents fun method {_ _} => method.simulates decompressor

end RubyLzws.Results.StreamRefinement
