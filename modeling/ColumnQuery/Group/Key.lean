import ColumnQuery.Scalar

/-! # Group keys

Rows belong to one group when their group values agree position by position, with both zeros taken
as one value and all NaNs as one. Two forms of the key express this: a byte encoding that is equal
for equal keys only, and an order in which equal keys compare as equal.

In the encoding each value is a type tag and its payload, closed by the byte `0xff`. Integers and
floats are written lowest byte first; a string is preceded by its length in bytes, in 32 bits.
-/

namespace ColumnQuery.GroupKey

/-- The lowest bytes of a number, lowest first. -/
def littleEndian : (count : Nat) → Nat → List UInt8
  | 0, _ => []
  | count + 1, n => UInt8.ofNat n :: littleEndian count (n / 256)

def encodeValue : Scalar → List UInt8
  | .null => [0]
  | .int64 n => 1 :: littleEndian 8 n.toUInt64.toNat
  | .float64 x => 2 :: littleEndian 8 x.canonical.bits.toNat
  | .boolean b => [3, if b then 1 else 0]
  | .utf8 s => 4 :: littleEndian 4 s.utf8ByteSize ++ s.toUTF8.toList
  | .int32 n => 5 :: littleEndian 4 n.toUInt32.toNat

def encode : List Scalar → List UInt8
  | [] => []
  | value :: values => encodeValue value ++ 0xff :: encode values

/-- The order of tuples of group values: the first difference decides, and a tuple comes before
its extensions. -/
def compare : List Scalar → List Scalar → Ordering
  | [], [] => .eq
  | [], _ :: _ => .lt
  | _ :: _, [] => .gt
  | a :: as, b :: bs => (a.canonical.compare b.canonical).then (compare as bs)

end ColumnQuery.GroupKey
