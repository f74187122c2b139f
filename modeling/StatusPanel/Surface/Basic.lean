import StatusPanel.Surface.Color

/-!
# Drawing surfaces

A surface takes strokes, power commands and flushes, and may refuse each of them. Pictures to be
drawn are lists of strokes, drawn up to the first refusal.

## Main definitions

* `Stroke`: one draw call
* `Fault`, `Reply`: why a call is refused, and its answer
* `Surface`: the interface of a surface
* `andThen`: one call after another, up to the first refusal
* `drawAll`, `paint`: draws strokes up to the first refusal, without and with a flush

## Main results

* `view_andThen`: what the next call never changes is as the last call left it
-/

namespace StatusPanel

/-- Why a surface refuses a call. -/
inductive Fault
  /-- The panel cannot be reached. -/
  | communication
  /-- A stroke leaves the panel. -/
  | invalidCoordinates
  /-- The panel has not been initialised. -/
  | notInitialized
  deriving DecidableEq, Repr

/-- The name a fault has in the log. -/
def Fault.describe : Fault → String
  | .communication => "Communication"
  | .invalidCoordinates => "InvalidCoordinates"
  | .notInitialized => "NotInitialized"

/-- The answer of a surface. -/
abbrev Reply := Except Fault Unit

instance : DecidableEq Reply
  | .ok (), .ok () => isTrue rfl
  | .ok (), .error _ => isFalse nofun
  | .error _, .ok () => isFalse nofun
  | .error fault, .error other =>
    decidable_of_iff (fault = other) (by rw [Except.error.injEq])

/-- A draw call with pictures of type `ι`. -/
inductive Stroke (ι : Type)
  /-- A picture with its top left corner at a pixel. -/
  | image (x y : UInt16) (picture : ι)
  /-- A rectangle given by its inclusive edges, filled or outlined. -/
  | rect (left top right bottom : UInt16) (color : Color) (filled : Bool)
  deriving DecidableEq, Repr

/-- A surface that draws pictures of type `ι`: every call gives the surface after it and an
answer. -/
class Surface (S : Type) (ι : outParam Type) where
  /-- Draws one stroke. -/
  draw : S → Stroke ι → S × Reply
  /-- Switches the panel on or off. -/
  power : S → Bool → S × Reply
  /-- Shows what was drawn. -/
  flush : S → S × Reply

/-- Goes on with the next call unless the last one was refused. -/
def andThen {S : Type} : S × Reply → (S → S × Reply) → S × Reply
  | (surface, .ok ()), next => next surface
  | (surface, .error fault), _ => (surface, .error fault)

section

variable {S : Type}

@[simp] theorem andThen_ok (surface : S) (next : S → S × Reply) :
    andThen (surface, .ok ()) next = next surface := rfl

@[simp] theorem andThen_error (surface : S) (fault : Fault) (next : S → S × Reply) :
    andThen (surface, .error fault) next = (surface, .error fault) := rfl

@[simp] theorem andThen_return (r : S × Reply) :
    andThen r (fun surface => (surface, .ok ())) = r := by
  obtain ⟨_, _ | _⟩ := r <;> rfl

theorem andThen_assoc (r : S × Reply) (f g : S → S × Reply) :
    andThen (andThen r f) g = andThen r fun surface => andThen (f surface) g := by
  obtain ⟨_, _ | _⟩ := r <;> rfl

/-- A view that the next call never changes is that after the last one. -/
theorem view_andThen {α : Type} (view : S → α) (r : S × Reply) {next : S → S × Reply}
    (h : ∀ surface, view (next surface).1 = view surface) :
    view (andThen r next).1 = view r.1 := by
  obtain ⟨surface, _ | _⟩ := r
  · rfl
  · exact h surface

end

variable {S ι : Type} [Surface S ι]

/-- Draws strokes in order up to the first refusal, which is the answer. -/
def drawAll (surface : S) : List (Stroke ι) → S × Reply
  | [] => (surface, .ok ())
  | stroke :: rest => andThen (Surface.draw surface stroke) fun surface => drawAll surface rest

@[simp] theorem drawAll_nil (surface : S) : drawAll surface [] = (surface, .ok ()) := rfl

@[simp] theorem drawAll_cons (surface : S) (stroke : Stroke ι) (rest : List (Stroke ι)) :
    drawAll surface (stroke :: rest) =
      andThen (Surface.draw surface stroke) fun surface => drawAll surface rest := rfl

/-- Draws strokes and closes them with a single flush, whether or not all were drawn. The answer is
that of the strokes; a refused flush goes unnoticed. -/
def paint (surface : S) (strokes : List (Stroke ι)) : S × Reply :=
  ((Surface.flush (drawAll surface strokes).1).1, (drawAll surface strokes).2)

end StatusPanel
