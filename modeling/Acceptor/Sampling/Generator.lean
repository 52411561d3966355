/-!
# Pseudo-random numbers from a seed

A `Generator` is a 128-bit linear congruential generator whose output is folded to 64 bits and
rotated by its own top bits. `Generator.ofSeed` spreads the bits of a seed of any size over its state
and increment by multiplicative hashing. `Generator.below` scales whole words to a range and draws
again where scaling would favour some results; every draw is in range.
-/

namespace Acceptor

namespace Seed

/-- A multiplier that changes with every word hashed. -/
abbrev Hashing := StateM UInt32

/-- Hashes one word; `factor` moves the multiplier on. -/
def hash (factor word : UInt32) : Hashing UInt32 := fun multiplier =>
  let next := multiplier * factor
  let word := (word ^^^ multiplier) * next
  (word ^^^ (word >>> 16), next)

def mix (x y : UInt32) : UInt32 :=
  let r := 0xca01f9dd * x - 0x4973f715 * y
  r ^^^ (r >>> 16)

/-- The 32-bit words of a number, least significant first. -/
def words (n : Nat) : List UInt32 :=
  if n < 0x100000000 then [UInt32.ofNat n] else UInt32.ofNat n :: words (n / 0x100000000)
termination_by n
decreasing_by omega

abbrev Pool := Vector UInt32 4

def absorb (pool : Pool) (d : Fin 4) (word : UInt32) : Hashing Pool := do
  return pool.set d (mix pool[d] (← hash 0x931e8875 word))

def place (pool : Pool) (i : Fin 4) (word : UInt32) : Hashing Pool := do
  return pool.set i (← hash 0x931e8875 word)

/-- The first four words fill the pool, every word of the pool is mixed into every other, and then
each further word into all four. -/
def fill (seed : List UInt32) : Hashing Pool := do
  let indices := List.finRange 4
  let pool ← indices.foldlM (fun pool i => place pool i (seed.getD i 0)) (Vector.replicate 4 0)
  let pool ← indices.foldlM (fun pool s =>
    (indices.filter (· ≠ s)).foldlM (fun (pool : Pool) d => absorb pool d pool[s]) pool) pool
  (seed.drop 4).foldlM (fun pool word => indices.foldlM (fun pool d => absorb pool d word) pool) pool

/-- Eight words from the pool, in two rounds. -/
def drain (pool : Pool) : List UInt32 :=
  let hashed : Hashing (List UInt32) := (pool.toList ++ pool.toList).mapM (hash 0x58f38ded)
  (hashed.run 0x8b51f9dd).1

def expand (seed : Nat) : List UInt32 := drain ((fill (words seed)).run 0x43b0d7e5).1

/-- Joins words into one number, least significant first. -/
def join (ws : List UInt32) : Nat := ws.foldr (fun w n => w.toNat + 0x100000000 * n) 0

end Seed

structure Generator where
  state : BitVec 128
  increment : BitVec 128
  /-- The upper half of a 64-bit word of which only the lower half has been used. -/
  spare : Option UInt32

namespace Generator

def advance (g : Generator) : Generator :=
  { g with state := g.state * 0x2360ed051fc65da44385df649fccf645 + g.increment }

def ofSeed (seed : Nat) : Generator :=
  let ws := Seed.expand seed
  let part (i : Nat) : BitVec 128 := BitVec.ofNat 128 (Seed.join ((ws.drop i).take 2))
  let increment := (((part 4 <<< 64) ||| part 6) <<< 1) ||| 1
  let g : Generator := advance ⟨0, increment, none⟩
  advance { g with state := g.state + ((part 0 <<< 64) ||| part 2) }

/-- The next 64-bit word. -/
def word64 (g : Generator) : Nat × Generator :=
  let g := g.advance
  let folded := (g.state >>> 64).setWidth 64 ^^^ g.state.setWidth 64
  ((folded.rotateRight (g.state >>> 122).toNat).toNat, g)

/-- The next 32-bit word: a 64-bit word gives its lower half first and then its upper half. -/
def word32 (g : Generator) : Nat × Generator :=
  match g.spare with
  | some half => (half.toNat, { g with spare := none })
  | none =>
    let (w, g) := g.word64
    (w % 0x100000000, { g with spare := some (UInt32.ofNat (w / 0x100000000)) })

/-- Scales a word below `size` to a number below `n`. Words whose product with `n` leaves a remainder
below `(size - n) % n` are drawn again, at most `redraws` times, so that every result has equally many
words. -/
def scaled (size : Nat) (word : Generator → Nat × Generator) (n : Nat) :
    (redraws : Nat) → Generator → Nat × Generator
  | 0, g =>
    let (w, g) := word g
    (w * n / size, g)
  | redraws + 1, g =>
    let (w, g) := word g
    if w * n % size < (size - n) % n then scaled size word n redraws g else (w * n / size, g)

/-- There are no more than this many states, so words rejected this often in a row would be rejected
for ever. -/
def period : Nat := 1 <<< 130

/-- A number below `n`; a range of one number needs no draw. -/
def below (n : Nat) (g : Generator) : Nat × Generator :=
  if n ≤ 1 then (0, g)
  else if n ≤ 0x100000000 then scaled 0x100000000 word32 n period g
  else scaled 0x10000000000000000 word64 n period g

/-- `count` numbers below `n`. -/
def manyBelow (n : Nat) : (count : Nat) → Generator → List Nat × Generator
  | 0, g => ([], g)
  | count + 1, g =>
    let (x, g) := g.below n
    let (xs, g) := manyBelow n count g
    (x :: xs, g)

end Generator

end Acceptor
