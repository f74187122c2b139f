import StatusPanel.Byte

/-!
# Key lighting

The parameters of the RGB matrix under the keys, as its engine reports them.

## Main definitions

* `Lighting`: the parameters
* `Lighting.effectBit`: a bit of the effect number, for the six-square index
-/

namespace StatusPanel

/-- The parameters of the RGB matrix. -/
structure Lighting where
  enabled : Bool
  effect : UInt8
  hue : UInt8
  sat : UInt8
  val : UInt8
  speed : UInt8
  deriving DecidableEq, Repr

namespace Lighting

/-- The number of effects of the engine. -/
def effectCount : Nat := 50

/-- The number of bits the effect index shows, enough for every effect of the engine. -/
def effectBits : Nat := 6

/-- The lighting before the engine reports in. -/
def initial : Lighting := ⟨true, 50, 132, 213, 150, 127⟩

/-- Whether a bit of the effect number is set; the index shows no bit from the sixth on. -/
def effectBit (lighting : Lighting) (bit : UInt8) : Bool :=
  bit.toNat < effectBits && Byte.bit lighting.effect bit.toNat

end Lighting

end StatusPanel
