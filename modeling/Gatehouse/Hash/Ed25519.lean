import Gatehouse.Hash.Sha2

/-!
# Keys on the curve of Ed25519

The public key of a seed: the seed is hashed into a number, and the base point is added to itself
that often.  Points are held in projective form, so that adding them needs no division.
-/

namespace Gatehouse.Hash.Ed25519

def prime : Nat := 1 <<< 255 - 19

def power (a : Nat) : (exponentBits : List Bool) → Nat
  | [] => 1
  | b :: r =>
    let s := power (a * a % prime) r
    if b then s * a % prime else s

/-- The bits of a number, the least significant first. -/
def bitsOf (width n : Nat) : List Bool := (List.range width).map n.testBit

def inverse (a : Nat) : Nat := power a (bitsOf 255 (prime - 2))

def coefficient : Nat := (prime - 121665) * inverse 121666 % prime

/-- A point `(x / z, y / z)` with `t * z = x * y`. -/
structure Point where
  x : Nat
  y : Nat
  z : Nat
  t : Nat

namespace Point

def neutral : Point := ⟨0, 1, 1, 0⟩

def add (p q : Point) : Point :=
  let a := (p.y + prime - p.x) * (q.y + prime - q.x) % prime
  let b := (p.y + p.x) * (q.y + q.x) % prime
  let c := p.t * 2 * coefficient % prime * q.t % prime
  let d := p.z * 2 * q.z % prime
  let e := b + prime - a
  let f := d + prime - c
  let g := d + c
  let h := b + a
  ⟨e * f % prime, g * h % prime, f * g % prime, e * h % prime⟩

/-- A point added to itself as often as a number says. -/
def multiple (p : Point) : (bits : List Bool) → Point
  | [] => neutral
  | b :: r =>
    let s := multiple (p.add p) r
    if b then s.add p else s

/-- The form that is written: `y`, with the lowest bit of `x` on top. -/
def octets (p : Point) : Octets :=
  let i := inverse p.z
  let x := p.x * i % prime
  let y := p.y * i % prime
  (Octets.bigEndian 32 (y + (x % 2) <<< 255)).reverse

end Point

/-- The coordinates of the base point. -/
def baseX : Nat := 15112221349535400772501151409588531511454012693041857206046113283949847762202

def baseY : Nat := 4 * inverse 5 % prime

def base : Point := ⟨baseX, baseY, 1, baseX * baseY % prime⟩

/-- The number of a seed: half of its hash, a multiple of eight between two powers of two. -/
def scalar (seed : Octets) : Nat :=
  let n := Octets.toNat ((Sha2.sha512.digest seed).take 32).reverse
  n % 1 <<< 254 / 8 * 8 + 1 <<< 254

def publicKey (seed : Octets) : Octets := (base.multiple (bitsOf 255 (scalar seed))).octets

end Gatehouse.Hash.Ed25519
