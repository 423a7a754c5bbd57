/-!
# Random numbers

A stream of pseudo-random numbers from a seed. The numbers are words of the ChaCha key stream with
twelve rounds, so the `n`-th number of a stream is a function of the key and `n` alone: nothing is
kept but the key and how many numbers have been drawn.
-/

set_option autoImplicit false

namespace NumberedBasic

namespace ChaCha

/-- The sixteen words a block is computed from and consists of. -/
abbrev Block := Vector UInt32 16

/-- A word with its bits turned to the left. -/
def rotate (x : UInt32) (k : UInt32) : UInt32 :=
  (x <<< k) ||| (x >>> (32 - k))

/-- One quarter of a round, on four words of a block. -/
def quarter (s : Block) (a b c d : Fin 16) : Block :=
  let s := s.set a (s[a] + s[b])
  let s := s.set d (rotate (s[d] ^^^ s[a]) 16)
  let s := s.set c (s[c] + s[d])
  let s := s.set b (rotate (s[b] ^^^ s[c]) 12)
  let s := s.set a (s[a] + s[b])
  let s := s.set d (rotate (s[d] ^^^ s[a]) 8)
  let s := s.set c (s[c] + s[d])
  s.set b (rotate (s[b] ^^^ s[c]) 7)

/-- A round on the columns of a block, then one on its diagonals. -/
def doubleRound (s : Block) : Block :=
  let s := quarter (quarter (quarter (quarter s 0 4 8 12) 1 5 9 13) 2 6 10 14) 3 7 11 15
  quarter (quarter (quarter (quarter s 0 5 10 15) 1 6 11 12) 2 7 8 13) 3 4 9 14

/-- The start of a block: the constants, the key, a counter and two zeros. -/
def start (key : Vector UInt32 8) (counter : UInt64) : Block :=
  #v[0x61707865, 0x3320646e, 0x79622d32, 0x6b206574,
     key[0], key[1], key[2], key[3], key[4], key[5], key[6], key[7],
     counter.toUInt32, (counter >>> 32).toUInt32, 0, 0]

/-- A block of the key stream. -/
def block (key : Vector UInt32 8) (counter : UInt64) : Block :=
  let s := start key counter
  let mixed := (List.range 6).foldl (fun s _ => doubleRound s) s
  mixed.zipWith (· + ·) s

end ChaCha

/-- A stream of random numbers: its key, how many have been drawn, and the last of them. -/
structure Dice where
  key : Vector UInt32 8
  drawn : Nat
  last : Float

namespace Dice

/-- One step of the generator that spreads a seed over a key. -/
def spread (s : UInt64) : UInt64 :=
  s * 6364136223846793005 + 11634580027462260723

/-- The word of a key that a state of that generator yields. -/
def keyWord (s : UInt64) : UInt32 :=
  let x := (((s >>> 18) ^^^ s) >>> 27).toUInt32
  let turn := (s >>> 59).toUInt32
  (x >>> turn) ||| (x <<< ((32 - turn) % 32))

/-- The key of a seed. -/
def keyOfSeed (seed : UInt64) : Vector UInt32 8 :=
  let s₁ := spread seed
  let s₂ := spread s₁
  let s₃ := spread s₂
  let s₄ := spread s₃
  let s₅ := spread s₄
  let s₆ := spread s₅
  let s₇ := spread s₆
  let s₈ := spread s₇
  #v[keyWord s₁, keyWord s₂, keyWord s₃, keyWord s₄, keyWord s₅, keyWord s₆, keyWord s₇, keyWord s₈]

/-- The stream of a seed, when `last` is the number drawn before. -/
def ofSeed (seed : UInt64) (last : Float) : Dice :=
  ⟨keyOfSeed seed, 0, last⟩

/-- The `n`-th number of the stream with a key: 53 bits of two words of the key stream, the low one
first, as a fraction of one. -/
def nth (key : Vector UInt32 8) (n : Nat) : Float :=
  let words := ChaCha.block key (UInt64.ofNat (n / 8))
  let i := 2 * (n % 8)
  let low := words.get ⟨i, by omega⟩
  let high := words.get ⟨i + 1, by omega⟩
  let bits := (high.toUInt64 <<< 32) ||| low.toUInt64
  (bits >>> 11).toFloat * Float.ofBits 0x3ca0000000000000

/-- Draws the next number. -/
def draw (dice : Dice) : Dice :=
  { dice with drawn := dice.drawn + 1, last := nth dice.key dice.drawn }

/-- What `RND` does with its argument: a negative one starts the stream that has it for a seed, zero
repeats the last number, and all others draw the next one. The number is `last` of the result. -/
def roll (dice : Dice) (x : Float) : Dice :=
  if x < 0.0 then (ofSeed x.toBits dice.last).draw
  else if x == 0.0 then dice
  else dice.draw

end Dice

end NumberedBasic
