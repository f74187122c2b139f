import StatusPanel.Asset.Basic

/-!
# Galleries

The pictures that loaded, one place for each asset. An asset that did not load has no picture, and
nothing is drawn in its stead.

## Main definitions

* `Gallery`: a picture or nothing for every asset
* `Gallery.load`: the gallery of a loader, which is asked once for each asset
* `Gallery.loaded`: the number of pictures

## Main results

* `Gallery.get?_load`: a gallery holds what its loader answers
-/

namespace StatusPanel

/-- A picture of type `ι`, or none, for every asset. -/
structure Gallery (ι : Type) where
  /-- The places, in the order of `Asset.all`. -/
  places : Vector (Option ι) 16

namespace Gallery

variable {ι : Type}

/-- The gallery without pictures. -/
def empty : Gallery ι := ⟨Vector.replicate 16 none⟩

/-- The gallery of a loader. -/
def load (loader : Asset → Option ι) : Gallery ι :=
  ⟨⟨(Asset.all.map loader).toArray, by simp [Asset.all]⟩⟩

/-- How often a loader is asked while a gallery loads. -/
def attempts : Nat := Asset.all.length

theorem index_lt (a : Asset) : a.index < 16 := by cases a <;> decide

/-- The picture of an asset, if it loaded. -/
def get? (g : Gallery ι) (a : Asset) : Option ι :=
  have h : a.index < 16 := index_lt a
  g.places[a.index]

/-- The number of pictures. -/
def loaded (g : Gallery ι) : Nat :=
  (g.places.toList.filter Option.isSome).length

@[simp] theorem get?_empty (a : Asset) : (empty : Gallery ι).get? a = none := by
  simp [get?, empty]

@[simp] theorem get?_load (loader : Asset → Option ι) (a : Asset) :
    (load loader).get? a = loader a := by
  cases a <;> rfl

end Gallery

end StatusPanel
