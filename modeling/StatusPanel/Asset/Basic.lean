import StatusPanel.Keyboard.Layers
import StatusPanel.Keyboard.Locks

/-!
# Assets

The pictures of the status screen, and which of them a keyboard state selects.

## Main definitions

* `Asset`: the pictures, in table order
* `Asset.defaultLayer`, `Asset.checkbox`, `Asset.lockIcon`, `Asset.separator`: the choices
-/

namespace StatusPanel

/-- The pictures of the status screen. -/
inductive Asset
  | modeDvorak
  | modeQwerty
  | modeStenography
  | speedIndicator
  | checkboxYes
  | checkboxNo
  | capsOn
  | capsOff
  | numOn
  | numOff
  | scrollOn
  | scrollOff
  | separatorOffOff
  | separatorOnOff
  | separatorOffOn
  | separatorOnOn
  deriving DecidableEq, Repr

namespace Asset

/-- All assets, in table order. -/
def all : List Asset :=
  [.modeDvorak, .modeQwerty, .modeStenography, .speedIndicator, .checkboxYes, .checkboxNo, .capsOn,
    .capsOff, .numOn, .numOff, .scrollOn, .scrollOff, .separatorOffOff, .separatorOnOff,
    .separatorOffOn, .separatorOnOn]

theorem mem_all (a : Asset) : a ∈ all := by cases a <;> decide

/-- The place of an asset in the table. -/
def index (a : Asset) : Nat := a.ctorIdx

/-- An asset stands at its index. -/
@[simp] theorem all_getElem?_index (a : Asset) : all[a.index]? = some a := by cases a <;> rfl

/-- The glyph of the default layer: Dvorak wins over QWERTY, and neither means stenography. -/
def defaultLayer (mask : LayerMask) : Asset :=
  if mask.contains .dvorak then .modeDvorak
  else if mask.contains .qwerty then .modeQwerty
  else .modeStenography

/-- The checkbox of a layer that is active or not. -/
def checkbox (active : Bool) : Asset :=
  if active then .checkboxYes else .checkboxNo

/-- The icon of a lock key that is on or off. -/
def lockIcon : LockKey → Bool → Asset
  | .caps, true => .capsOn
  | .caps, false => .capsOff
  | .num, true => .numOn
  | .num, false => .numOff
  | .scroll, true => .scrollOn
  | .scroll, false => .scrollOff

/-- The picture of a separator. -/
def separator : Separator → Asset
  | .offOff => .separatorOffOff
  | .onOff => .separatorOnOff
  | .offOn => .separatorOffOn
  | .onOn => .separatorOnOn

end Asset

end StatusPanel
