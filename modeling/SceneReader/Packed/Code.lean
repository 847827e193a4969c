import SceneReader.Packed.Bits

/-!
# Codes of shortest words

A code gives each symbol a word of bits, and no word starts another one.  It is described
by the lengths of its words alone: shorter words come first, and words of one length are
in the order of their symbols and follow each other as numbers.
-/

namespace SceneReader
namespace Packed

/-- A code: how many words there are of each length from one to fifteen, and the symbols
in the order of their words. -/
structure Code where
  counts : List Nat
  symbols : List Nat

namespace Code

/-- The greatest length of a word. -/
def maxLength : Nat := 15

/-- The symbols whose words have a length. -/
def symbolsOfLength (lengths : List Nat) (n : Nat) : List Nat :=
  (lengths.zipIdx.filter (fun e => e.1 == n)).map (·.2)

/-- The code with these lengths of the words of the symbols from zero on; a symbol with
length zero has no word. -/
def ofLengths (lengths : List Nat) : Code :=
  let groups := (List.range maxLength).map fun i => symbolsOfLength lengths (i + 1)
  ⟨groups.map List.length, groups.flatten⟩

/-- How many words of the greatest length are free; there is no answer if there are more
words than bits can tell apart. -/
def free? (c : Code) : Option Nat :=
  c.counts.foldlM (fun left n => if 2 * left < n then none else some (2 * left - n)) 1

/-- Every row of bits starts with a word. -/
def isComplete (c : Code) : Bool := c.free? == some 0

/-- There are no symbols, or there is one, whose word is one bit. -/
def isTrivial (c : Code) : Bool :=
  c.symbols.isEmpty || (c.symbols.length == 1 && c.counts.head? == some 1)

/-- Reads a word.  `word` is what was read of it, `first` the first word of the length that
follows, and `index` the place of its symbol. -/
def symbolFrom (symbols : List Nat) : List Nat → (word first index : Nat) → BitReader Nat
  | [], _, _, _ => throw .corrupt
  | count :: counts, word, first, index => do
      let word := word + (← BitReader.bit)
      if word < first + count then
        match symbols[index + (word - first)]? with
        | some s => return s
        | none => throw .corrupt
      else symbolFrom symbols counts (2 * word) (2 * (first + count)) (index + count)

/-- Reads a symbol. -/
def symbol (c : Code) : BitReader Nat := symbolFrom c.symbols c.counts 0 0 0

end Code
end Packed
end SceneReader
