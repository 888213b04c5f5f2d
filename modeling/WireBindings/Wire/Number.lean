/-!
# Numbers as octets

Numbers of several octets are written with the least significant octet first.
-/

namespace WireBindings.Wire

/-- The number that the octets spell. -/
def ofOctets (octets : List UInt8) : Nat :=
  octets.foldr (fun octet value => octet.toNat + 256 * value) 0

/-- A number as `width` octets. What does not fit the width is lost. -/
def toOctets : (width : Nat) → Nat → List UInt8
  | 0, _ => []
  | width + 1, value => UInt8.ofNat (value % 256) :: toOctets width (value / 256)

/-- How many numbers can be told apart by `width` octets. -/
def capacity : (width : Nat) → Nat
  | 0 => 1
  | width + 1 => 256 * capacity width

/-- A number takes as many octets as its width says. -/
@[simp] theorem length_toOctets (width value : Nat) : (toOctets width value).length = width := by
  induction width generalizing value with
  | zero => rfl
  | succ width ih => simp [toOctets, ih]

/-- A number that fits the width is read back. -/
theorem ofOctets_toOctets {width value : Nat} (h : value < capacity width) :
    ofOctets (toOctets width value) = value := by
  induction width generalizing value with
  | zero =>
    simp only [capacity] at h
    simp only [toOctets, ofOctets, List.foldr_nil]
    omega
  | succ width ih =>
    -- the further octets are those of what is left when the last eight bits are taken off
    have hrest : ofOctets (toOctets width (value / 256)) = value / 256 :=
      ih (by simp only [capacity] at h; omega)
    simp only [ofOctets] at hrest
    simp only [toOctets, ofOctets, List.foldr_cons, hrest, UInt8.toNat_ofNat']
    omega

end WireBindings.Wire
