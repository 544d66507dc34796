import LineStore.Text.Utf8

/-!
Where a key belongs. The octets of a key are the digits of a number in base 32, highest first, of which
the low 32 bits are kept; the remainder by the number of buckets is the bucket.
-/

namespace LineStore.Store

/-- The number that the octets of a key spell in base 32, in one 32-bit word. -/
def rollingHash (key : String) : UInt32 :=
  (Utf8.encode key).foldl (fun hash octet => (hash <<< 5) + octet.toUInt32) 0

/-- The bucket of a key among `count` buckets. -/
def bucketOf (key : String) (count : Nat) : Nat :=
  (rollingHash key).toNat % count

/-- The bucket of a key, if there are any buckets. -/
def bucketOf? (key : String) (count : Nat) : Option Nat :=
  if count = 0 then none else some (bucketOf key count)

theorem bucketOf_lt (key : String) {count : Nat} (h : 0 < count) : bucketOf key count < count :=
  Nat.mod_lt _ h

end LineStore.Store
