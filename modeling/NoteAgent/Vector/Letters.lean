import NoteAgent.Vector.Service
/-!
# Letters — what embeds texts, and an embedding by letters

An index asks for the embedding of one text at a time and knows nothing else of how texts are embedded.  Where no service
that does it is at hand, a text is embedded as how often each of the letters from a to z occurs in it, in either case.
-/
namespace NoteAgent
namespace Vector

/-- The embedding of texts, asked one text at a time: the answer may depend on how many were asked before. -/
structure Embedder where
  embed : Nat → String → Except Failure (List Embedding)
  asked : Nat

namespace Letters

def letters : List Char := (List.range 26).map fun i => Char.ofNat (0x61 + i)

def counts (text : String) : List Nat :=
  let cs := text.toList.map Char.toLower
  letters.map fun c => cs.count c

def embedding (text : String) : Embedding := (counts text).map Nat.toFloat

def embedder : Embedder := ⟨fun _ text => .ok [embedding text], 0⟩

def dimension : Int := 26

end Letters
end Vector
end NoteAgent
