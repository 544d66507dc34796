import LineStore.Text.Utf8

/-! How long a key and a line may be. -/

namespace LineStore

/-- The greatest number of octets of a key. -/
def maxKeyBytes : Nat := 32

/-- The greatest number of octets of a line, its line feed included. -/
def maxLineBytes : Nat := 4096

/-- A key that is short enough to be stored. -/
def KeyFits (key : String) : Prop :=
  key.utf8ByteSize ≤ maxKeyBytes

instance (key : String) : Decidable (KeyFits key) :=
  inferInstanceAs (Decidable (key.utf8ByteSize ≤ maxKeyBytes))

end LineStore
