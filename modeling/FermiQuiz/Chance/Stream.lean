/-!
# Random streams

A stream hands out 64-bit words. `Stream` is the ChaCha cipher with twelve rounds run as a
generator: its blocks, numbered from zero under a key spread from a seed, are the words. What
uses randomness takes any `WordSource`.
-/

namespace FermiQuiz.Chance

/-- A source of 64-bit words: the next word, and the source after it. -/
class WordSource (σ : Type) where
  next : σ → UInt64 × σ

/-! ### Blocks -/

/-- Four words of the cipher's state, on which it works side by side. -/
structure Row where
  a : UInt32
  b : UInt32
  c : UInt32
  d : UInt32
  deriving DecidableEq, Repr

namespace Row

def add (x y : Row) : Row := ⟨x.a + y.a, x.b + y.b, x.c + y.c, x.d + y.d⟩

/-- The bits of `x` turned left by `n` places, `n` from 1 to 31. -/
def turn (n : UInt32) (x : UInt32) : UInt32 := (x <<< n) ||| (x >>> (32 - n))

/-- The exclusive or of two rows, with every word turned left by `n` places. -/
def mix (n : UInt32) (x y : Row) : Row :=
  ⟨turn n (x.a ^^^ y.a), turn n (x.b ^^^ y.b), turn n (x.c ^^^ y.c), turn n (x.d ^^^ y.d)⟩

/-- The words moved by one, two or three places to the left. -/
def rotate1 (x : Row) : Row := ⟨x.b, x.c, x.d, x.a⟩
def rotate2 (x : Row) : Row := ⟨x.c, x.d, x.a, x.b⟩
def rotate3 (x : Row) : Row := ⟨x.d, x.a, x.b, x.c⟩

/-- The two 64-bit words in a row, the first word of each being the low half. -/
def words (x : Row) : List UInt64 :=
  [x.a.toUInt64 ||| (x.b.toUInt64 <<< 32), x.c.toUInt64 ||| (x.d.toUInt64 <<< 32)]

end Row

structure Block where
  r0 : Row
  r1 : Row
  r2 : Row
  r3 : Row
  deriving DecidableEq, Repr

namespace Block

def columns (s : Block) : Block :=
  let r0 := s.r0.add s.r1
  let r3 := s.r3.mix 16 r0
  let r2 := s.r2.add r3
  let r1 := s.r1.mix 12 r2
  let r0 := r0.add r1
  let r3 := r3.mix 8 r0
  let r2 := r2.add r3
  let r1 := r1.mix 7 r2
  ⟨r0, r1, r2, r3⟩

/-- A quarter round on each column, then on each diagonal. -/
def doubleRound (s : Block) : Block :=
  let s := s.columns
  let s := columns ⟨s.r0, s.r1.rotate1, s.r2.rotate2, s.r3.rotate3⟩
  ⟨s.r0, s.r1.rotate3, s.r2.rotate2, s.r3.rotate1⟩

/-- Twelve rounds, and the sum with the state they started from. -/
def scramble (s : Block) : Block :=
  let t := Nat.repeat doubleRound 6 s
  ⟨t.r0.add s.r0, t.r1.add s.r1, t.r2.add s.r2, t.r3.add s.r3⟩

def words (s : Block) : List UInt64 := s.r0.words ++ s.r1.words ++ s.r2.words ++ s.r3.words

end Block

/-! ### The generator -/

/-- A generator: its key, the number of the next block, and the words of the last block that are
still to be handed out. -/
structure Stream where
  keyLow : Row
  keyHigh : Row
  counter : UInt64
  pending : List UInt64
  deriving DecidableEq, Repr

namespace Stream

def block (s : Stream) (counter : UInt64) : Block :=
  Block.scramble
    ⟨⟨0x61707865, 0x3320646E, 0x79622D32, 0x6B206574⟩, s.keyLow, s.keyHigh,
      ⟨counter.toUInt32, (counter >>> 32).toUInt32, 0, 0⟩⟩

def next (s : Stream) : UInt64 × Stream :=
  match s.pending with
  | word :: rest => (word, { s with pending := rest })
  | [] =>
    match (s.block s.counter).words with
    | word :: rest => (word, { s with counter := s.counter + 1, pending := rest })
    | [] => (0, s)

instance : WordSource Stream := ⟨next⟩

/-! ### Seeds -/

/-- A step of the sequence that spreads a seed over a key. -/
def spreadStep (state : UInt64) : UInt64 := state * 6364136223846793005 + 11634580027462260723

/-- The key word of a state of that sequence: the state's upper bits, turned right by an amount
taken from the five highest. -/
def spreadWord (state : UInt64) : UInt32 :=
  let x := (((state >>> 18) ^^^ state) >>> 27).toUInt32
  let n := (state >>> 59).toUInt32
  (x >>> n) ||| (x <<< (32 - n))

def spreadRow (state : UInt64) : Row × UInt64 :=
  let s1 := spreadStep state
  let s2 := spreadStep s1
  let s3 := spreadStep s2
  let s4 := spreadStep s3
  (⟨spreadWord s1, spreadWord s2, spreadWord s3, spreadWord s4⟩, s4)

def ofSeed (seed : UInt64) : Stream :=
  let (keyLow, state) := spreadRow seed
  let (keyHigh, _) := spreadRow state
  ⟨keyLow, keyHigh, 0, []⟩

end Stream

end FermiQuiz.Chance
