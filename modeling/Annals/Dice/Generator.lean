import Annals.Dice
/-!
# Generators of words

A generator yields words of 32 and 64 bits and counts them. Draws are made from the words:

* a fraction from the upper 53 bits of a long word, a coin from its top bit;
* a number up to `n` from the upper half of the product of a word with `n + 1`, where words whose
  lower half lies beyond the largest multiple that fits are drawn again, so that all numbers are
  equally likely.

A source comes back to a state that it has had before, so drawing again ends: when every word of a
round has been refused, every later word would be.
-/

namespace Annals

/-- Where the words of a generator come from. -/
inductive WordSource where
  /-- Four words that are mixed by shifts and rotations. -/
  | mixing (s0 s1 s2 s3 : UInt64)
  /-- An arithmetic progression. -/
  | stepping (value step : UInt64)
  /-- A list that is read over and over; `rest` is what is left of the present round. -/
  | cycling (all rest : List UInt64)
deriving DecidableEq, Repr

/-- A source of words and the number of words drawn so far. -/
structure Generator where
  source : WordSource
  draws : Nat
deriving DecidableEq, Repr

namespace WordSource

/-- The bits of a word moved to the left, those that fall out entering on the right. -/
def rotate (x : UInt64) (k : UInt64) : UInt64 := (x <<< k) ||| (x >>> (64 - k))

/-- The next long word. -/
def next : WordSource → UInt64 × WordSource
  | .mixing s0 s1 s2 s3 =>
    let word := rotate (s0 + s3) 23 + s0
    let t := s1 <<< 17
    let s2 := s2 ^^^ s0
    let s3 := s3 ^^^ s1
    let s1 := s1 ^^^ s2
    let s0 := s0 ^^^ s3
    let s2 := s2 ^^^ t
    (word, .mixing s0 s1 s2 (rotate s3 45))
  | .stepping value step => (value, .stepping (value + step) step)
  | .cycling all (word :: rest) => (word, .cycling all rest)
  | .cycling all [] =>
    match all with
    | [] => (0, .cycling [] [])
    | word :: rest => (word, .cycling all rest)

/-- The next short word: the upper half of a mixed word, else the lower half. -/
def nextShort (s : WordSource) : UInt32 × WordSource :=
  let (word, s') := s.next
  match s with
  | .mixing .. => ((word >>> 32).toUInt32, s')
  | _ => (word.toUInt32, s')

/-- A bound on the number of states that the source can reach. -/
def round : WordSource → Nat
  | .mixing .. => Nat.pow 2 256
  | .stepping .. => UInt64.size
  | .cycling all rest => all.length + rest.length + 1

/-! ## Seeds -/

/-- One step of the sequence that spreads a seed over the four words. -/
def seedStep (state : UInt64) : UInt64 := state * 6364136223846793005 + 11634580027462260723

/-- The 32 bits that a state of the sequence yields. -/
def seedWord (state : UInt64) : UInt32 :=
  let x := (((state >>> 18) ^^^ state) >>> 27).toUInt32
  let k := (state >>> 59).toUInt32
  if k = 0 then x else (x >>> k) ||| (x <<< (32 - k))

/-- The next `n` words of the sequence, each of two yields, the lower half first. -/
def seedWords : Nat → UInt64 → List UInt64
  | 0, _ => []
  | n + 1, state =>
    let low := seedStep state
    let high := seedStep low
    ((seedWord low).toUInt64 ||| ((seedWord high).toUInt64 <<< 32)) :: seedWords n high

/-- The mixing source of a seed. -/
def seeded (seed : UInt64) : WordSource :=
  match seedWords 4 seed with
  | [s0, s1, s2, s3] => .mixing s0 s1 s2 s3
  | _ => .mixing 0 0 0 0

end WordSource

namespace Generator

/-- The mixing generator of a seed. -/
def seeded (seed : UInt64) : Generator := { source := .seeded seed, draws := 0 }

/-- The generator of an arithmetic progression. -/
def stepping (value step : UInt64) : Generator := { source := .stepping value step, draws := 0 }

/-- The generator that reads a list over and over. -/
def cycling (words : List UInt64) : Generator := { source := .cycling words words, draws := 0 }

/-- The next long word. -/
def long (g : Generator) : UInt64 × Generator :=
  let (word, source) := g.source.next
  (word, { source, draws := g.draws + 1 })

/-- The next short word. -/
def short (g : Generator) : UInt32 × Generator :=
  let (word, source) := g.source.nextShort
  (word, { source, draws := g.draws + 1 })

/-- The largest lower half that is accepted for `range` numbers from words of `bits` bits: one
below the largest `range * 2 ^ k` that is at most `2 ^ bits`. -/
def zone (bits range : Nat) : Nat := range * Nat.pow 2 (bits - 1 - range.log2) - 1

/-- The number that a word below `size` stands for, unless the lower half of its product with the
range is beyond `zone`. -/
def accept? (size range zone word : Nat) : Option Nat :=
  let product := word * range
  if product % size ≤ zone then some (product / size) else none

/-- Draws words until one is accepted, at most as many as the bound; zero when none is. -/
def firstAccepted (word : Generator → Nat × Generator) (accept? : Nat → Option Nat) :
    Nat → Generator → Nat × Generator
  | 0, g => (0, g)
  | fuel + 1, g =>
    let (w, g) := word g
    match accept? w with
    | some m => (m, g)
    | none => firstAccepted word accept? fuel g

/-- A number up to `n` from words of `bits` bits; a whole word when all words are wanted. -/
def upTo (bits : Nat) (word : Generator → Nat × Generator) (n : Nat) (g : Generator) :
    Fin (n + 1) × Generator :=
  let size := Nat.pow 2 bits
  let range := n + 1
  let limit := zone bits range
  let (m, g) :=
    if range = size then word g
    else firstAccepted word (accept? size range limit) g.source.round g
  (Fin.ofNat (n + 1) m, g)

instance : Dice Generator where
  roll g :=
    let (word, g) := g.long
    (⟨Fin.ofNat (Nat.pow 2 53) (word >>> 11).toNat⟩, g)
  coin g :=
    let (word, g) := g.long
    (word < (1 : UInt64) <<< 63, g)
  short n g := upTo 32 (fun g => let (w, g) := g.short; (w.toNat, g)) n g
  long n g := upTo 64 (fun g => let (w, g) := g.long; (w.toNat, g)) n g

end Generator

end Annals
