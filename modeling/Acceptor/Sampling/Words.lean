import Acceptor.Ascending
import Acceptor.Sampling.Generator

/-!
# Random words

`Sampling.words` draws words over an alphabet and some extra symbols: first all lengths, then the
symbols of each word in turn. Beside the seed and the sizes only the ascending list of the symbols
counts, not where they came from.
-/

namespace Acceptor.Sampling

structure Spec where
  count : Int
  maxLength : Int
  extra : List String
  /-- Without a seed the words depend on what the caller has for entropy. -/
  seed : Option Int

inductive Refusal where
  | noWords
  | negativeLength
  | longExtra
  | emptyAlphabet
  | negativeSeed
  | lengthTooLarge
deriving DecidableEq, Repr

def Refusal.message : Refusal → String
  | .noWords => "n_strings must be > 0"
  | .negativeLength => "max_length must be >= 0"
  | .longExtra => "extra_symbols must be single characters"
  | .emptyAlphabet => "alphabet must not be empty"
  | .negativeSeed => "expected non-negative integer"
  | .lengthTooLarge => "high is out of bounds for int64"

def Spec.check (spec : Spec) : Except Refusal Unit :=
  if spec.count ≤ 0 then .error .noWords
  else if spec.maxLength < 0 then .error .negativeLength
  else if spec.extra.any (·.length ≠ 1) then .error .longExtra
  else .ok ()

/-- One word of each length. -/
def draw (symbols : List String) : (lengths : List Nat) → Generator → List String
  | [], _ => []
  | length :: lengths, g =>
    let (picks, g) := g.manyBelow symbols.length length
    String.join (picks.filterMap (symbols[·]?)) :: draw symbols lengths g

/-- The words drawn from a generator. -/
def wordsFrom (symbols : List String) (count maxLength : Nat) (g : Generator) : List String :=
  let (lengths, g) := g.manyBelow (maxLength + 1) count
  draw symbols lengths g

def symbols (alphabet : List String) (spec : Spec) : List String := ascending (alphabet ++ spec.extra)

def words (alphabet : List String) (spec : Spec) (entropy : Nat) : Except Refusal (List String) := do
  spec.check
  let symbols := symbols alphabet spec
  if symbols = [] then .error .emptyAlphabet
  else if spec.seed.any (· < 0) then .error .negativeSeed
  else if 0x8000000000000000 < spec.maxLength + 1 then .error .lengthTooLarge
  else
    let seed := (spec.seed.map Int.toNat).getD entropy
    return wordsFrom symbols spec.count.toNat spec.maxLength.toNat (.ofSeed seed)

end Acceptor.Sampling
