import Gatehouse.Octets

/-!
# The SHA-2 hash functions

One construction for words of 32 and of 64 bits, which differ in the number of rounds and in how far
words are rotated.  A message is padded to whole blocks of sixteen words; each block is stretched
into one word per round and mixed into a state of eight words.  The constants are the fractions of
square and cube roots of primes.
-/

namespace Gatehouse.Hash

/-- A function of the family; all words have `bits` bits. -/
structure Sha2 where
  bits : Nat
  rounds : Nat
  /-- How far the first word of the state is rotated. -/
  rotateFirst : List Nat
  /-- How far the fifth word is. -/
  rotateFifth : List Nat
  /-- How far the word fifteen rounds back is rotated, and how far it is shifted. -/
  stretchOld : List Nat × Nat
  /-- How far the word two rounds back is. -/
  stretchNew : List Nat × Nat

namespace Sha2

/-- Words of 32 bits. -/
def sha256 : Sha2 := ⟨32, 64, [2, 13, 22], [6, 11, 25], ([7, 18], 3), ([17, 19], 10)⟩

/-- Words of 64 bits. -/
def sha512 : Sha2 := ⟨64, 80, [28, 34, 39], [14, 18, 41], ([1, 8], 7), ([19, 61], 6)⟩

/-! ## Constants -/

/-- The largest number whose power does not exceed `n`, searched bit by bit from the bit below `i`
down. -/
def rootFrom (power n : Nat) : (i : Nat) → Nat → Nat
  | 0, r => r
  | i + 1, r =>
    let t := r + 1 <<< i
    rootFrom power n i (if t.pow power ≤ n then t else r)

/-- The first bits of the fraction of a root of `n`. -/
def rootFraction (bits power n : Nat) : Nat :=
  rootFrom power (n <<< (power * bits)) (bits + 12) 0 % 1 <<< bits

def isPrime (n : Nat) : Bool := 2 ≤ n && (List.range n).all fun d => d < 2 || n % d != 0

/-- The first primes; there are eighty up to 409. -/
def primes : List Nat := (List.range 410).filter isPrime

def start (h : Sha2) : List Nat := (primes.take 8).map (rootFraction h.bits 2)

def constants (h : Sha2) : List Nat := (primes.take h.rounds).map (rootFraction h.bits 3)

/-! ## Words -/

variable (h : Sha2)

def add (a b : Nat) : Nat := (a + b) % 1 <<< h.bits

def rotate (a n : Nat) : Nat := (a >>> n ||| a <<< (h.bits - n)) % 1 <<< h.bits

/-- The sum without carries of a word rotated several times. -/
def mix (rotations : List Nat) (a : Nat) : Nat :=
  rotations.foldl (fun m n => m ^^^ h.rotate a n) 0

/-- The sum without carries of a word rotated several times and shifted once. -/
def stretch (moves : List Nat × Nat) (a : Nat) : Nat := h.mix moves.1 a ^^^ a >>> moves.2

/-! ## Blocks -/

/-- The words of a block, stretched by so many more; the last word comes first. -/
def scheduleFrom : (n : Nat) → List Nat → List Nat
  | 0, ws => ws
  | n + 1, ws =>
    let w (i : Nat) : Nat := ws.getD (i - 1) 0
    scheduleFrom n
      ((w 16 + h.stretch h.stretchOld (w 15) + w 7 + h.stretch h.stretchNew (w 2)) %
        1 <<< h.bits :: ws)

def schedule (block : List Nat) : List Nat := (h.scheduleFrom (h.rounds - 16) block.reverse).reverse

def round (state : List Nat) (k w : Nat) : List Nat :=
  match state with
  | [a, b, c, d, e, f, g, last] =>
    let choice := (e &&& f) ^^^ ((1 <<< h.bits - 1 - e) &&& g)
    let majority := (a &&& b) ^^^ (a &&& c) ^^^ (b &&& c)
    let t := last + h.mix h.rotateFifth e + choice + k + w
    [h.add t (h.mix h.rotateFirst a + majority), a, b, c, h.add d t, e, f, g]
  | _ => state

def compress (constants state block : List Nat) : List Nat :=
  let mixed := (constants.zip (h.schedule block)).foldl (fun s kw => h.round s kw.1 kw.2) state
  List.zipWith h.add state mixed

/-! ## Messages -/

def wordLength : Nat := h.bits / 8

/-- The padded message: a bit, zeros, and the length in two words. -/
def pad (message : Octets) : Octets :=
  let block := 16 * h.wordLength
  let used := (message.length + 1 + 2 * h.wordLength) % block
  message ++ 0x80 :: List.replicate ((block - used) % block) 0 ++
    Octets.bigEndian (2 * h.wordLength) (8 * message.length)

/-- The list in pieces of `n` elements, with `fuel` bounding their number. -/
def pieces {α : Type} (n : Nat) : (fuel : Nat) → List α → List (List α)
  | 0, _ => []
  | _, [] => []
  | fuel + 1, as => as.take n :: pieces n fuel (as.drop n)

def words (bs : Octets) : List Nat := (pieces h.wordLength bs.length bs).map Octets.toNat

def digest (message : Octets) : Octets :=
  let words := h.words (h.pad message)
  let state := (pieces 16 words.length words).foldl (h.compress h.constants) h.start
  state.flatMap (Octets.bigEndian h.wordLength)

end Sha2

end Gatehouse.Hash
