import Perimeter.Fault
import Perimeter.Misuse
import Perimeter.Picture

/-!
# Rasters

Three storage layouts of a binary image over a buffer of bytes, all with rows that start `stride`
pixels apart:

* `bytes`: one byte a pixel, any non-zero byte is ink;
* `threshold`: one byte a pixel, bytes above a level are ink;
* `bits`: one bit a pixel, least significant bit first.

A raster made by `Raster.ofBuffer` passed the check that its last pixel lies inside the buffer. The
check computes in 64-bit words, so for absurd sizes it can pass although pixels lie outside. Reading
such a pixel is a misuse.
-/

namespace Perimeter

/-- How a raster stores its pixels. -/
inductive Raster.Layout where
  | bytes
  | threshold (level : UInt8)
  | bits
deriving DecidableEq, Repr

/-- A binary image over a buffer. -/
structure Raster where
  layout : Raster.Layout
  buffer : Array UInt8
  stride : Int
  width : Int
  height : Int
deriving DecidableEq, Repr

namespace Raster

/-- The name of a layout in messages. -/
def Layout.name : Layout → LayoutName
  | bytes => .bytes
  | threshold _ => .threshold
  | bits => .bits

/-- The number of pixels that a buffer holds. -/
def Layout.capacity (l : Layout) (buffer : Array UInt8) : Int :=
  match l with
  | bits => (buffer.size : Int) * 8
  | _ => buffer.size

/-- Refuses an image without pixels, rows that overlap, and a buffer that ends before the last
pixel. -/
def checkLayout (l : Layout) (size width height stride : Int) : Except Fault Unit :=
  if width ≤ 0 ∨ height ≤ 0 then .error (.invalidSize l.name width height)
  else if stride < width then .error (.strideTooSmall l.name stride width)
  else
    let needed := wrap64 ((height - 1) * stride + width)
    if size < needed then .error (.bufferTooShort l.name size needed) else .ok ()

/-- Views a buffer as an image. -/
def ofBuffer (l : Layout) (buffer : Array UInt8) (width height stride : Int) :
    Except Fault Raster := do
  checkLayout l (l.capacity buffer) width height stride
  pure ⟨l, buffer, stride, width, height⟩

/-- The pixel lies inside the image. -/
def Contains (r : Raster) (x y : Int) : Prop := 0 ≤ x ∧ 0 ≤ y ∧ x < r.width ∧ y < r.height

instance (r : Raster) (x y : Int) : Decidable (r.Contains x y) :=
  inferInstanceAs (Decidable (_ ∧ _))

/-- The place of a pixel in the buffer, counted in pixels. -/
def index (r : Raster) (x y : Int) : Int := wrap64 (y * r.stride + x)

/-- The place of the byte that holds the pixel at an index. -/
def Layout.byteIndex (l : Layout) (i : Int) : Int :=
  match l with
  | .bits => i / 8
  | _ => i

/-- The byte at a place of the buffer, if the buffer has it. -/
def byte? (r : Raster) (k : Int) : Option UInt8 := if 0 ≤ k then r.buffer[k.toNat]? else none

/-- The byte holds ink for the pixel at an index. -/
def Layout.inkIn (l : Layout) (i : Int) (b : UInt8) : Bool :=
  match l with
  | .bytes => b != 0
  | .threshold level => level < b
  | .bits => b.toNat.testBit (i % 8).toNat

/-- The pixel is ink. Pixels outside the image are background. -/
def get (r : Raster) (x y : Int) : Except Misuse Bool :=
  if r.Contains x y then
    let i := r.index x y
    match r.byte? (r.layout.byteIndex i) with
    | some b => .ok (r.layout.inkIn i b)
    | none => .error (.outsideBuffer i)
  else .ok false

/-- The byte after its pixel at an index was written. -/
def Layout.write (l : Layout) (i : Int) (b : UInt8) (on : Bool) : UInt8 :=
  match l with
  | .bits =>
    let mask : UInt8 := 1 <<< UInt8.ofNat (i % 8).toNat
    if on then b ||| mask else b &&& ~~~mask
  | _ => if on then 1 else 0

/-- Writes a pixel. Pixels outside the image are ignored. -/
def set (r : Raster) (x y : Int) (on : Bool) : Except Misuse Raster :=
  if r.Contains x y then
    let i := r.index x y
    let k := r.layout.byteIndex i
    match r.byte? k with
    | some b => .ok { r with buffer := r.buffer.setIfInBounds k.toNat (r.layout.write i b on) }
    | none => .error (.outsideBuffer i)
  else .ok r

/-- A threshold raster is a view of somebody else's picture and is not written. -/
def isReadOnly (r : Raster) : Bool :=
  match r.layout with
  | .threshold _ => true
  | _ => false

/-- What a walk sees of the raster. -/
def picture (r : Raster) : Picture where
  width := r.width
  height := r.height
  ink x y :=
    match r.get x y with
    | .ok b => b
    | .error _ => false

/-- Reads all pixels row by row and reports the first that lies outside the buffer. -/
def readAll (r : Raster) : Except Misuse Unit :=
  go (r.width.toNat * r.height.toNat) 0
where
  /-- Reads `n` more pixels from the `k`-th on. -/
  go : Nat → Nat → Except Misuse Unit
    | 0, _ => .ok ()
    | n + 1, k =>
      match r.get (k % r.width.toNat : Nat) (k / r.width.toNat : Nat) with
      | .ok _ => go n (k + 1)
      | .error e => .error e

/-- A raster of one byte a pixel that is ink where `ink` says so. Negative sizes count as zero. -/
def ofInk (width height : Int) (ink : Int → Int → Bool) : Raster :=
  let w := width.toNat
  let h := height.toNat
  let pixel (k : Fin (w * h)) : UInt8 := if ink (k.val % w : Nat) (k.val / w : Nat) then 1 else 0
  ⟨.bytes, Array.ofFn pixel, w, w, h⟩

/-- An image without ink. Negative sizes count as zero. -/
def blank (width height : Int) : Raster :=
  ⟨.bytes, Array.replicate (width.toNat * height.toNat) 0, width.toNat, width.toNat, height.toNat⟩

/-- The byte number `k` of a picture of `w` columns packed eight pixels a byte. -/
def packedByte (p : Picture) (w n k : Nat) : UInt8 :=
  (List.range 8).foldl (fun acc j =>
    let i := 8 * k + j
    if i < n && p.isInk (i % w : Nat) (i / w : Nat) then acc ||| 1 <<< UInt8.ofNat j else acc) 0

/-- A tightly packed bit raster of a picture. -/
def packBits (p : Picture) : Raster :=
  let w := p.width.toNat
  let n := w * p.height.toNat
  ⟨.bits, Array.ofFn fun (k : Fin ((n + 7) / 8)) => packedByte p w n k.val, p.width, p.width,
    p.height⟩

/-- The number of ink pixels of a raster of one byte a pixel, read row by row. -/
def count (r : Raster) : Except Misuse Nat :=
  go r.height.toNat 0 0
where
  /-- Counts `n` more rows from row `y` on. -/
  go : Nat → Nat → Nat → Except Misuse Nat
    | 0, _, total => .ok total
    | n + 1, y, total =>
      let first := r.index 0 y
      let last := r.index r.width y
      if first < 0 ∨ last < first ∨ (r.buffer.size : Int) < last then
        .error (.outsideBuffer last)
      else
        let row := (r.buffer.extract first.toNat last.toNat).filter (· != 0)
        go n (y + 1) (total + row.size)

/-- A view of a gray image as one byte a pixel, without a check of its buffer. -/
def ofGray (buffer : Array UInt8) (stride width height : Int) : Raster :=
  ⟨.bytes, buffer, stride, width, height⟩

/-- The part of a raster of one byte a pixel that lies in a rectangle, over the same rows. The
corners may be given in any order; a rectangle that misses the image gives an empty raster. -/
def crop (r : Raster) (x0 y0 x1 y1 : Int) : Raster :=
  let left := max (min x0 x1) 0
  let right := min (max x0 x1) r.width
  let top := max (min y0 y1) 0
  let bottom := min (max y0 y1) r.height
  if right ≤ left ∨ bottom ≤ top then ⟨.bytes, #[], 0, 0, 0⟩
  else
    let first := (r.index left top).toNat
    { r with
      buffer := r.buffer.extract first r.buffer.size
      width := right - left
      height := bottom - top }

end Raster

namespace Picture

/-- The rows of a picture, `#` for ink and `.` for background. -/
def rows (p : Picture) : List String :=
  (List.range p.height.toNat).map fun (y : Nat) =>
    String.ofList ((List.range p.width.toNat).map fun (x : Nat) => if p.isInk x y then '#' else '.')

/-- The picture as text, one line a row. -/
def render (p : Picture) : String := String.join (p.rows.map (· ++ "\n"))

end Picture

end Perimeter
