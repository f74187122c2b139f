/-!
# Keymap layers

The layers of the keymap and the sets of layers a keyboard reports as 32-bit masks.

## Main definitions

* `Layer`: the named layers, in bit order
* `LayerMask`: a set of layers
* `Layer.indicated`: the layers that have a checkbox on the screen
-/

namespace StatusPanel

/-- The named layers of the keymap; the order is the order of their bits. -/
inductive Layer
  | dvorak
  | qwerty
  | symbols
  | control
  deriving DecidableEq, Repr

/-- The bit number of a layer. -/
def Layer.index : Layer → UInt8
  | .dvorak => 0
  | .qwerty => 1
  | .symbols => 2
  | .control => 3

/-- The layers with a checkbox, from left to right. -/
def Layer.indicated : List Layer := [.symbols, .control]

/-- A set of layers; bits without a named layer are kept. -/
structure LayerMask where
  /-- One bit for each layer. -/
  bits : UInt32
  deriving DecidableEq, Repr

namespace LayerMask

/-- The set with no layer. -/
def empty : LayerMask := ⟨0⟩

/-- The mask bit of a layer. -/
def bit (layer : Layer) : UInt32 := 1 <<< layer.index.toUInt32

/-- The set with one layer. -/
def only (layer : Layer) : LayerMask := ⟨bit layer⟩

/-- The set with one more layer. -/
def insert (mask : LayerMask) (layer : Layer) : LayerMask := ⟨mask.bits ||| bit layer⟩

/-- Whether a layer is in the set. -/
def contains (mask : LayerMask) (layer : Layer) : Bool := mask.bits &&& bit layer != 0

@[simp] theorem contains_empty (layer : Layer) : empty.contains layer = false := by
  cases layer <;> rfl

end LayerMask

end StatusPanel
