import SeriesIngest.Bytes.Basic

/-!
# The xxHash64 function

xxHash64 of a byte string with a 64-bit seed, in 64-bit wrapping arithmetic: inputs of 32 bytes
or more are consumed in stripes of four little-endian lanes, each lane folded into its own
accumulator; the accumulators are merged, the length is added, the remaining 8-byte words,
4-byte word and single bytes are mixed in, and a final avalanche spreads every bit.

`partsHash` hashes a list of byte strings as their concatenation under a given 64-bit hash, the
seed-0 xxHash64 where the command line uses it, and never returns 0, which stays free as a
marker.
-/

namespace SeriesIngest.Hash

/-- The first prime constant of the function. -/
def prime1 : UInt64 := 0x9E3779B185EBCA87
/-- The second prime constant. -/
def prime2 : UInt64 := 0xC2B2AE3D27D4EB4F
/-- The third prime constant. -/
def prime3 : UInt64 := 0x165667B19E3779F9
/-- The fourth prime constant. -/
def prime4 : UInt64 := 0x85EBCA77C2B2AE63
/-- The fifth prime constant. -/
def prime5 : UInt64 := 0x27D4EB2F165667C5

/-- Rotation to the left by `r` bits, `0 < r < 64`. -/
def rotl (x : UInt64) (r : UInt64) : UInt64 := (x <<< r) ||| (x >>> (64 - r))

/-- Folds one lane into an accumulator. -/
def mixLane (acc lane : UInt64) : UInt64 := rotl (acc + lane * prime2) 31 * prime1

/-- Merges an accumulator into the hash after the stripes. -/
def mergeLane (h v : UInt64) : UInt64 := (h ^^^ mixLane 0 v) * prime1 + prime4

/-- The little-endian value of the first `n` bytes. -/
def leWord (b : Bytes) (n : Nat) : UInt64 :=
  ((b.take n).reverse.foldl (fun (acc : Nat) (x : UInt8) => acc * 256 + x.toNat) 0).toUInt64

/-- Consumes all whole 32-byte stripes, returning the four accumulators and the rest. -/
def stripes (v : UInt64 × UInt64 × UInt64 × UInt64) (b : Bytes) :
    (UInt64 × UInt64 × UInt64 × UInt64) × Bytes :=
  if _h : 32 ≤ b.length then
    let (v1, v2, v3, v4) := v
    stripes (mixLane v1 (leWord b 8), mixLane v2 (leWord (b.drop 8) 8),
      mixLane v3 (leWord (b.drop 16) 8), mixLane v4 (leWord (b.drop 24) 8)) (b.drop 32)
  else (v, b)
termination_by b.length
decreasing_by simp; omega

/-- Mixes the bytes left after the stripes into the hash. -/
def finishTail (h : UInt64) (b : Bytes) : UInt64 :=
  if _h8 : 8 ≤ b.length then
    finishTail (rotl (h ^^^ mixLane 0 (leWord b 8)) 27 * prime1 + prime4) (b.drop 8)
  else if _h4 : 4 ≤ b.length then
    finishTail (rotl (h ^^^ leWord b 4 * prime1) 23 * prime2 + prime3) (b.drop 4)
  else
    match b with
    | [] => h
    | x :: rest => finishTail (rotl (h ^^^ x.toUInt64 * prime5) 11 * prime1) rest
termination_by b.length
decreasing_by all_goals simp_all; try omega

/-- The final mixing of all bits. -/
def avalanche (h : UInt64) : UInt64 :=
  let h := (h ^^^ (h >>> 33)) * prime2
  let h := (h ^^^ (h >>> 29)) * prime3
  h ^^^ (h >>> 32)

/-- xxHash64 of a byte string with a seed. -/
def xxHash64 (seed : UInt64) (b : Bytes) : UInt64 :=
  let start : UInt64 :=
    if 32 ≤ b.length then
      let ((v1, v2, v3, v4), _) :=
        stripes (seed + prime1 + prime2, seed + prime2, seed, seed - prime1) b
      let h := rotl v1 1 + rotl v2 7 + rotl v3 12 + rotl v4 18
      mergeLane (mergeLane (mergeLane (mergeLane h v1) v2) v3) v4
    else seed + prime5
  let rest := b.drop (b.length / 32 * 32)
  avalanche (finishTail (start + b.length.toUInt64) rest)

/-- The hash of the concatenated parts under a 64-bit hash, with 0 replaced by 1. -/
def partsHash (hash : Bytes → UInt64) (parts : List Bytes) : UInt64 :=
  let h := hash parts.flatten
  if h = 0 then 1 else h

/-- The hash of parts is never 0. -/
theorem partsHash_ne_zero (hash : Bytes → UInt64) (parts : List Bytes) :
    partsHash hash parts ≠ 0 := by
  unfold partsHash
  dsimp only
  split
  · decide
  · assumption

end SeriesIngest.Hash
