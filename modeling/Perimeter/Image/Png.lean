import Perimeter.Image.Basic
import Perimeter.Packed.Deflate

/-!
# PNG files

Images in files are rows of chunks: a header with the size and the kind of the pixels, perhaps a
palette, the packed pixels, and a mark of the end. `Png.decode?` reads files whose rows are stored in
order, and `Png.encode` writes colours with eight bits a component.
-/

namespace Perimeter.Png

open Packed

/-- The bytes that every file starts with. -/
def signature : List UInt8 := [0x89, 0x50, 0x4E, 0x47, 0x0D, 0x0A, 0x1A, 0x0A]

/-- A piece of a file. -/
structure Chunk where
  kind : String
  content : List UInt8

/-- The number that bytes make, the highest first. -/
def number (bytes : List UInt8) : Nat := bytes.foldl (fun n b => n * 256 + b.toNat) 0

/-- The text of bytes that are characters. -/
def latin (bytes : List UInt8) : String := String.ofList (bytes.map fun b => Char.ofNat b.toNat)

/-- Reads chunks up to the mark of the end, at most `n`. -/
def chunks? : Nat → List UInt8 → Option (List Chunk)
  | 0, _ => none
  | n + 1, bytes =>
    let size := number (bytes.take 4)
    let body := (bytes.drop 4).take (size + 4)
    let rest := bytes.drop (size + 8)
    if body.length < size + 4 || rest.length < 4 then none
    else if number (rest.take 4) != (remainder body).toNat then none
    else
      let kind := latin (body.take 4)
      if kind == "IEND" then some []
      else (chunks? n (rest.drop 4)).map (⟨kind, body.drop 4⟩ :: ·)

/-- How pixels are stored. -/
inductive PixelKind where
  | gray
  | colour
  | palette
  | grayAlpha
  | colourAlpha
deriving DecidableEq, Repr

/-- The kind of pixels of a number. -/
def PixelKind.ofCode? : Nat → Option PixelKind
  | 0 => some gray
  | 2 => some colour
  | 3 => some palette
  | 4 => some grayAlpha
  | 6 => some colourAlpha
  | _ => none

/-- The number of samples of a pixel. -/
def PixelKind.samples : PixelKind → Nat
  | gray | palette => 1
  | grayAlpha => 2
  | colour => 3
  | colourAlpha => 4

/-- The size of an image and the way its pixels are stored. -/
structure Header where
  width : Nat
  height : Nat
  /-- The number of bits of a sample. -/
  depth : Nat
  kind : PixelKind

/-- Reads a header. Only rows that are stored in order are understood. -/
def Header.ofChunk? (content : List UInt8) : Option Header := do
  let kind ← PixelKind.ofCode? (number ((content.drop 9).take 1))
  let depth := number ((content.drop 8).take 1)
  if content.length == 13 && [1, 2, 4, 8, 16].contains depth && number (content.drop 10) == 0 then
    some ⟨number (content.take 4), number ((content.drop 4).take 4), depth, kind⟩
  else none

/-- The number of bytes of a row. -/
def Header.rowSize (h : Header) : Nat := (h.width * h.kind.samples * h.depth + 7) / 8

/-- The distance in bytes between a sample and the one to the left of it. -/
def Header.step (h : Header) : Nat := max 1 (h.kind.samples * h.depth / 8)

/-- The neighbour of a byte that is nearest to left plus above minus corner. -/
def nearest (left above corner : Nat) : Nat :=
  let estimate : Int := left + above - corner
  let a := (estimate - left).natAbs
  let b := (estimate - above).natAbs
  let c := (estimate - corner).natAbs
  if a ≤ b && a ≤ c then left else if b ≤ c then above else corner

/-- What was taken from a byte when the row was stored. -/
def predicted (filter left above corner : Nat) : Nat :=
  match filter with
  | 1 => left
  | 2 => above
  | 3 => (left + above) / 2
  | 4 => nearest left above corner
  | _ => 0

/-- Restores a row from the stored one and the row above it. -/
def restoreRow (filter step : Nat) (above stored : Array UInt8) : Array UInt8 :=
  let byte (row : Array UInt8) (k : Nat) : Nat := (row.getD k 0).toNat
  (List.range stored.size).foldl (fun row k =>
    let left := if step ≤ k then byte row (k - step) else 0
    let corner := if step ≤ k then byte above (k - step) else 0
    row.push (UInt8.ofNat (byte stored k + predicted filter left (byte above k) corner))) #[]

/-- Restores `n` rows of the given size from the position on. -/
def restoreRows? (size step : Nat) (data : Array UInt8) :
    Nat → Nat → Array UInt8 → Option (List (Array UInt8))
  | 0, _, _ => some []
  | n + 1, pos, above =>
    match data[pos]? with
    | none => none
    | some filter =>
      let stored := data.extract (pos + 1) (pos + 1 + size)
      if stored.size < size || 4 < filter.toNat then none
      else
        let row := restoreRow filter.toNat step above stored
        (restoreRows? size step data n (pos + 1 + size) row).map (row :: ·)

/-- The sample number `k` of a row. -/
def sample (depth : Nat) (row : Array UInt8) (k : Nat) : Nat :=
  let byte (i : Nat) : Nat := (row.getD i 0).toNat
  if depth == 16 then byte (2 * k) * 256 + byte (2 * k + 1)
  else byte (k * depth / 8) / Nat.pow 2 (8 - depth - k * depth % 8) % Nat.pow 2 depth

/-- A sample as a component of eight bits. -/
def component (depth v : Nat) : UInt8 :=
  if depth == 16 then UInt8.ofNat (v / 256) else UInt8.ofNat (v * 255 / (Nat.pow 2 depth - 1))

/-- The colours of a palette, with the alpha that some of them have. -/
def paletteOf (entries alphas : List UInt8) : Array Colour :=
  go entries alphas #[]
where
  /-- Reads the rest of a palette. -/
  go : List UInt8 → List UInt8 → Array Colour → Array Colour
    | r :: g :: b :: rest, alphas, acc =>
      go rest (alphas.drop 1) (acc.push ⟨r, g, b, alphas.head?.getD 255⟩)
    | _, _, acc => acc

/-- The pixel number `x` of a row. -/
def Header.pixel (h : Header) (palette : Array Colour) (row : Array UInt8) (x : Nat) : Pixel :=
  let s (i : Nat) : UInt8 := component h.depth (sample h.depth row (x * h.kind.samples + i))
  match h.kind with
  | .gray =>
    if h.depth == 16 then .deepGray (UInt16.ofNat (sample 16 row x)) else .gray (s 0)
  | .grayAlpha => .straight ⟨s 0, s 0, s 0, s 1⟩
  | .colour => .straight ⟨s 0, s 1, s 2, 255⟩
  | .colourAlpha => .straight ⟨s 0, s 1, s 2, s 3⟩
  | .palette => .straight (palette.getD (sample h.depth row x) ⟨0, 0, 0, 255⟩)

/-- Reads an image file. -/
def decode? (bytes : List UInt8) : Option Image := do
  if bytes.take 8 != signature then
    none
  let chunks ← chunks? bytes.length (bytes.drop 8)
  let contents (kind : String) : List UInt8 :=
    (chunks.filter (·.kind == kind)).flatMap (·.content)
  let h ← Header.ofChunk? (contents "IHDR")
  let data ← unpack? (contents "IDAT").toArray
  let rows ← restoreRows? h.rowSize h.step data h.height 0 #[]
  let palette := paletteOf (contents "PLTE") (contents "tRNS")
  let pixels := rows.flatMap fun row => (List.range h.width).map (h.pixel palette row)
  pure ⟨h.width, h.height, pixels.toArray⟩

/-- Writes a chunk. -/
def chunkBytes (kind : String) (content : List UInt8) : List UInt8 :=
  let body := kind.toUTF8.toList ++ content
  bigEndian 4 content.length ++ body ++ bigEndian 4 (remainder body).toNat

/-- The bytes of a colour. -/
def colourBytes (c : Colour) : List UInt8 := [c.red, c.green, c.blue, c.alpha]

/-- Writes an image file. -/
def encode (i : Image) : List UInt8 :=
  let colours := i.pixels.map Pixel.saved
  let row (y : Nat) : List UInt8 :=
    0 :: (colours.extract (y * i.width) ((y + 1) * i.width)).toList.flatMap colourBytes
  let header := bigEndian 4 i.width ++ bigEndian 4 i.height ++ [8, 6, 0, 0, 0]
  signature ++ chunkBytes "IHDR" header ++
    chunkBytes "IDAT" (pack ((List.range i.height).flatMap row)) ++ chunkBytes "IEND" []

end Perimeter.Png
