/-! Hexadecimal digits in both cases, and their values. -/
namespace ODataPlan.Text

/-- The last place of a number. -/
def lastPlace (n : Nat) : Fin 16 := Fin.ofNat 16 n

def lowerHex (d : Fin 16) : Char := Nat.digitChar d

def upperHex (d : Fin 16) : Char := (Nat.digitChar d).toUpper

def hexValue? (c : Char) : Option (Fin 16) :=
  if c.isDigit then some (lastPlace (c.toNat - '0'.toNat))
  else if 'a' ≤ c ∧ c ≤ 'f' then some (lastPlace (c.toNat - 'a'.toNat + 10))
  else if 'A' ≤ c ∧ c ≤ 'F' then some (lastPlace (c.toNat - 'A'.toNat + 10))
  else none

@[simp] theorem hexValue?_lowerHex (d : Fin 16) : hexValue? (lowerHex d) = some d := by
  revert d; decide

@[simp] theorem hexValue?_upperHex (d : Fin 16) : hexValue? (upperHex d) = some d := by
  revert d; decide

end ODataPlan.Text
