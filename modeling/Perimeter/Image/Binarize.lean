import Perimeter.Failure
import Perimeter.Image.Basic

/-!
# From colours to ink

Two ways to tell ink from background: by the luminance of the colours without regard to alpha, which
is what image files go through, and by the brightness of the stored pixels.
-/

namespace Perimeter

/-- How to turn an image into a picture of ink. -/
structure BinarizeOptions where
  /-- Pixels darker than this are ink. -/
  threshold : UInt8 := 128
  /-- Light pixels are ink instead. -/
  invert : Bool := false
  /-- Keep one bit a pixel. -/
  packed : Bool := false
deriving DecidableEq, Repr

/-- The luminance of a colour, whatever its alpha. -/
def Colour.luminance (c : Colour) : UInt8 :=
  let part (v : UInt8) (weight : Float) : Float := weight * Float.ofNat v.toNat
  (part c.red 0.299 + part c.green 0.587 + part c.blue 0.114 + 0.5).toUInt8

namespace Image

/-- The pixels of an image for which a test holds. -/
def select (i : Image) (test : Pixel → Bool) : Raster :=
  Raster.ofInk i.width i.height fun x y =>
    match i.pixels[y.toNat * i.width + x.toNat]? with
    | some p => test p
    | none => false

/-- The ink of an image by luminance. -/
def ink (i : Image) (opts : BinarizeOptions) : Raster :=
  i.select fun p =>
    let v := p.colour.luminance
    (if opts.invert then 255 - v else v) < opts.threshold

/-- The pixels whose brightness lies below a level. -/
def darkerThan (i : Image) (level : UInt8) : Raster := i.select (·.brightness < level)

/-- The pixels whose brightness lies above a level. -/
def brighterThan (i : Image) (level : UInt8) : Raster := i.select (level < ·.brightness)

/-- Turns an image into a picture of ink. An image must be there and have pixels. -/
def binarize (image : Option Image) (opts : BinarizeOptions) : Except Failure Raster :=
  match image with
  | none => .error (.image "binarize" "input image is nil")
  | some i =>
    if i.width == 0 || i.height == 0 then .error (.image "binarize" "image has no pixels")
    else
      let r := i.ink opts
      .ok (if opts.packed then Raster.packBits r.picture else r)

end Image

end Perimeter
