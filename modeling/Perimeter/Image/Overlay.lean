import Perimeter.Blob.Basic
import Perimeter.Image.Basic

/-!
# Overlays

Contours drawn over an image, or over the picture that they were found in.
-/

namespace Perimeter.Overlay

/-- How to draw contours. -/
structure Options where
  /-- The colour of outer contours. -/
  outer : Colour := ⟨255, 0, 0, 255⟩
  /-- The colour of holes. -/
  hole : Colour := ⟨0, 0, 255, 255⟩
  /-- How often every pixel is repeated. -/
  scale : Int := 1
deriving DecidableEq, Repr

/-- The colour of a contour. -/
def Options.colourOf (opts : Options) : Polarity → Colour
  | .hole => opts.hole
  | _ => opts.outer

/-- The surface at its final size. -/
def Options.finish (opts : Options) (c : Canvas) : Canvas :=
  if 1 < opts.scale then c.enlarge opts.scale.toNat else c

/-- Draws contours over an image, or over a picture in black on white when there is no image. -/
def draw (base : Option Image) (p : Picture) (contours : List Blob.Contour) (opts : Options) : Canvas :=
  let start := match base with
    | some i => i.canvas
    | none => .ofPicture p
  opts.finish <| contours.foldl (fun c k => c.paintAll k.pointList (opts.colourOf k.polarity)) start

/-- Draws one list of points over a picture. -/
def drawPoints (p : Picture) (points : List Point) (opts : Options) : Canvas :=
  opts.finish ((Canvas.ofPicture p).paintAll points opts.outer)

end Perimeter.Overlay
