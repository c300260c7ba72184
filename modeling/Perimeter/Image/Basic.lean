import Perimeter.Colour
import Perimeter.Raster.Basic

/-!
# Colour images

An `Image` keeps its pixels as they were stored. `Image.canvas` reads them as colours with straight
alpha, the one view that drawing and binarizing work on.
-/

namespace Perimeter

/-- A stored pixel. -/
inductive Pixel where
  | gray (v : UInt8)
  /-- A shade of gray with sixteen bits. -/
  | deepGray (v : UInt16)
  /-- A colour with straight alpha. -/
  | straight (c : Colour)
  /-- A colour whose components were multiplied by alpha. -/
  | premultiplied (c : Colour)
deriving DecidableEq, Repr, Inhabited

namespace Pixel

/-- Divides a component by alpha, in words of sixteen bits. -/
def unscale (alpha c : UInt8) : UInt8 := UInt8.ofNat (c.toNat * 255 % 65536 / alpha.toNat)

/-- The pixel as a colour with straight alpha. -/
def colour : Pixel → Colour
  | gray v => .gray v
  | deepGray v => .gray (UInt8.ofNat (v.toNat / 256))
  | straight c => c
  | premultiplied c =>
    if c.alpha == 0 then ⟨0, 0, 0, 0⟩
    else if c.alpha == 255 then c
    else ⟨unscale c.alpha c.red, unscale c.alpha c.green, unscale c.alpha c.blue, c.alpha⟩

/-- A component divided by alpha with sixteen bits of precision. -/
def unscaleDeep (alpha c : UInt8) : UInt8 :=
  UInt8.ofNat (c.toNat * 257 * 65535 / (alpha.toNat * 257) / 256)

/-- The colour under which an image file keeps the pixel. -/
def saved : Pixel → Colour
  | premultiplied c =>
    if c.alpha == 0 then ⟨0, 0, 0, 0⟩
    else if c.alpha == 255 then c
    else ⟨unscaleDeep c.alpha c.red, unscaleDeep c.alpha c.green, unscaleDeep c.alpha c.blue, c.alpha⟩
  | p => p.colour

/-- A weighted sum of components of sixteen bits, as a shade of eight bits. -/
def weigh (r g b : Nat) : UInt8 := UInt8.ofNat ((19595 * r + 38470 * g + 7471 * b + 32768) / 16777216)

/-- The brightness of the pixel in front of black. -/
def brightness : Pixel → UInt8
  | gray v => v
  | deepGray v => UInt8.ofNat (v.toNat / 256)
  | straight c =>
    let scale (v : UInt8) : Nat := v.toNat * 257 * (c.alpha.toNat * 257) / 65535
    weigh (scale c.red) (scale c.green) (scale c.blue)
  | premultiplied c => weigh (c.red.toNat * 257) (c.green.toNat * 257) (c.blue.toNat * 257)

end Pixel

/-- A colour image, row by row. -/
structure Image where
  width : Nat
  height : Nat
  pixels : Array Pixel
deriving DecidableEq, Repr

/-- A surface of colours with straight alpha, row by row. -/
structure Canvas where
  width : Nat
  height : Nat
  colours : Array Colour
deriving DecidableEq, Repr

namespace Canvas

/-- The colour of a pixel; transparent black where there is none. -/
def colourAt (c : Canvas) (x y : Nat) : Colour := c.colours.getD (y * c.width + x) ⟨0, 0, 0, 0⟩

/-- The surface as an image. -/
def image (c : Canvas) : Image := ⟨c.width, c.height, c.colours.map .straight⟩

/-- The picture in black on white. -/
def ofPicture (p : Picture) : Canvas :=
  let w := p.width.toNat
  let h := p.height.toNat
  let shade (k : Fin (w * h)) : Colour :=
    .gray (if p.isInk (k.val % w : Nat) (k.val / w : Nat) then 0 else 255)
  ⟨w, h, Array.ofFn shade⟩

/-- Colours one pixel. Pixels outside are ignored. -/
def paint (c : Canvas) (q : Point) (colour : Colour) : Canvas :=
  if 0 ≤ q.x ∧ 0 ≤ q.y ∧ q.x < c.width ∧ q.y < c.height then
    { c with colours := c.colours.setIfInBounds (q.y * c.width + q.x).toNat colour }
  else c

/-- Colours several pixels. -/
def paintAll (c : Canvas) (points : List Point) (colour : Colour) : Canvas :=
  points.foldl (fun c q => c.paint q colour) c

/-- Repeats every pixel `scale` times along both axes. A surface without pixels loses its size. -/
def enlarge (c : Canvas) (scale : Nat) : Canvas :=
  let w := c.width * scale
  let h := c.height * scale
  if c.width == 0 || c.height == 0 then ⟨0, 0, #[]⟩
  else ⟨w, h, Array.ofFn fun (k : Fin (w * h)) => c.colourAt (k.val % w / scale) (k.val / w / scale)⟩

end Canvas

namespace Image

/-- The colours of an image. -/
def canvas (i : Image) : Canvas := ⟨i.width, i.height, i.pixels.map Pixel.colour⟩

/-- The image as a file gives it back. -/
def reloaded (i : Image) : Image := ⟨i.width, i.height, i.pixels.map fun p => .straight p.saved⟩

/-- The picture in black on white, in shades of gray. -/
def ofPicture (p : Picture) : Image :=
  let w := p.width.toNat
  let h := p.height.toNat
  let shade (k : Fin (w * h)) : Pixel :=
    .gray (if p.isInk (k.val % w : Nat) (k.val / w : Nat) then 0 else 255)
  ⟨w, h, Array.ofFn shade⟩

end Image

end Perimeter
