import Perimeter.Packed.Checksum
import Perimeter.Packed.PrefixCode

/-!
# Compressed data

Compressed data is a row of blocks. A block is a copy of its bytes, or a row of words of a code for bytes
and for repetitions of what was written before. `unpack?` reads any such data, and `pack` writes blocks
that are copies.
-/

namespace Perimeter.Packed

/-- The two codes of a block: one for bytes, lengths and the end, and one for distances. -/
structure BlockCodes where
  literals : Code
  distances : Code

/-- The least value and the number of further bits of every length of a repetition. -/
def lengthBases : Array (Nat × Nat) :=
  #[(3, 0), (4, 0), (5, 0), (6, 0), (7, 0), (8, 0), (9, 0), (10, 0), (11, 1), (13, 1), (15, 1), (17, 1),
    (19, 2), (23, 2), (27, 2), (31, 2), (35, 3), (43, 3), (51, 3), (59, 3), (67, 4), (83, 4), (99, 4),
    (115, 4), (131, 5), (163, 5), (195, 5), (227, 5), (258, 0)]

/-- The least value and the number of further bits of every distance of a repetition. -/
def distanceBases : Array (Nat × Nat) :=
  #[(1, 0), (2, 0), (3, 0), (4, 0), (5, 1), (7, 1), (9, 2), (13, 2), (17, 3), (25, 3), (33, 4), (49, 4),
    (65, 5), (97, 5), (129, 6), (193, 6), (257, 7), (385, 7), (513, 8), (769, 8), (1025, 9), (1537, 9),
    (2049, 10), (3073, 10), (4097, 11), (6145, 11), (8193, 12), (12289, 12), (16385, 13), (24577, 13)]

/-- Reads the further bits of a value. -/
def valueOf? (bases : Array (Nat × Nat)) (data : Array UInt8) (k pos : Nat) : Option (Nat × Nat) := do
  let (base, extra) ← bases[k]?
  let (more, pos) ← bits? data extra pos
  pure (base + more, pos)

/-- Repeats `n` bytes from a distance back. -/
def repeatBack (distance : Nat) : Nat → Array UInt8 → Option (Array UInt8)
  | 0, out => some out
  | n + 1, out =>
    if distance ≤ out.size then
      match out[out.size - distance]? with
      | some b => repeatBack distance n (out.push b)
      | none => none
    else none

/-- Reads words of a code up to the end of a block, at most `n` of them. -/
def words? (c : BlockCodes) (data : Array UInt8) :
    Nat → Nat → Array UInt8 → Option (Array UInt8 × Nat)
  | 0, _, _ => none
  | n + 1, pos, out =>
    match c.literals.read? data pos with
    | none => none
    | some (symbol, pos) =>
      if symbol < 256 then words? c data n pos (out.push (UInt8.ofNat symbol))
      else if symbol == 256 then some (out, pos)
      else
        let repetition := do
          let (length, pos) ← valueOf? lengthBases data (symbol - 257) pos
          let (k, pos) ← c.distances.read? data pos
          let (distance, pos) ← valueOf? distanceBases data k pos
          let out ← repeatBack distance length out
          pure (out, pos)
        match repetition with
        | none => none
        | some (out, pos) => words? c data n pos out

/-- The codes of a block that does not describe its own. -/
def fixedCodes : BlockCodes where
  literals := .ofLengths
    (List.replicate 144 8 ++ List.replicate 112 9 ++ List.replicate 24 7 ++ List.replicate 8 8)
  distances := .ofLengths (List.replicate 30 5)

/-- The order in which the lengths of words for lengths are written. -/
def lengthOrder : List Nat := [16, 17, 18, 0, 8, 7, 9, 6, 10, 5, 11, 4, 12, 3, 13, 2, 14, 1, 15]

/-- Reads `n` numbers of three bits. -/
def triples? (data : Array UInt8) : Nat → Nat → Option (List Nat × Nat)
  | 0, pos => some ([], pos)
  | n + 1, pos => do
    let (v, pos) ← bits? data 3 pos
    let (rest, pos) ← triples? data n pos
    pure (v :: rest, pos)

/-- Reads lengths of words until there are `total` of them, in at most `n` steps. The lengths are kept
last first. -/
def lengths? (c : Code) (data : Array UInt8) (total : Nat) :
    Nat → Nat → List Nat → Option (List Nat × Nat)
  | 0, _, _ => none
  | n + 1, pos, acc =>
    if total ≤ acc.length then (if acc.length == total then some (acc.reverse, pos) else none)
    else
      match c.read? data pos with
      | none => none
      | some (symbol, pos) =>
        let again (value base extra : Nat) : Option (List Nat × Nat) := do
          let (more, pos) ← bits? data extra pos
          pure (List.replicate (base + more) value ++ acc, pos)
        let step := match symbol with
          | 16 => acc.head?.bind fun last => again last 3 2
          | 17 => again 0 3 3
          | 18 => again 0 11 7
          | l => some (l :: acc, pos)
        match step with
        | none => none
        | some (acc, pos) => lengths? c data total n pos acc

/-- Reads the codes that a block describes. -/
def ownCodes? (data : Array UInt8) (pos : Nat) : Option (BlockCodes × Nat) := do
  let (literals, pos) ← bits? data 5 pos
  let (distances, pos) ← bits? data 5 pos
  let (count, pos) ← bits? data 4 pos
  let (given, pos) ← triples? data (count + 4) pos
  let table := lengthOrder.zip given
  let code := Code.ofLengths ((List.range 19).map fun k => (table.lookup k).getD 0)
  let (all, pos) ← lengths? code data (literals + 257 + distances + 1) 400 pos []
  pure (⟨.ofLengths (all.take (literals + 257)), .ofLengths (all.drop (literals + 257))⟩, pos)

/-- Reads a block that is a copy. -/
def copied? (data : Array UInt8) (pos : Nat) (out : Array UInt8) : Option (Array UInt8 × Nat) := do
  let (size, pos) ← bits? data 16 (wholeByte pos)
  let (check, pos) ← bits? data 16 pos
  let start := pos / 8
  if size + check == 65535 && start + size ≤ data.size then
    some (out ++ data.extract start (start + size), (start + size) * 8)
  else none

/-- Reads blocks up to the last one, at most `n`. -/
def blocks? (data : Array UInt8) : Nat → Nat → Array UInt8 → Option (Array UInt8)
  | 0, _, _ => none
  | n + 1, pos, out =>
    let step := do
      let (last, pos) ← bits? data 1 pos
      let (kind, pos) ← bits? data 2 pos
      let (out, pos) ← match kind with
        | 0 => copied? data pos out
        | 1 => words? fixedCodes data (8 * data.size + 1) pos out
        | 2 =>
          match ownCodes? data pos with
          | some (codes, pos) => words? codes data (8 * data.size + 1) pos out
          | none => none
        | _ => none
      pure (last == 1, out, pos)
    match step with
    | none => none
    | some (true, out, _) => some out
    | some (false, out, pos) => blocks? data n pos out

/-- Unpacks data behind the two bytes that say how it is packed. -/
def unpack? (data : Array UInt8) : Option (Array UInt8) :=
  match data[0]?, data[1]? with
  | some method, some flags =>
    if method.toNat % 16 == 8 && (method.toNat * 256 + flags.toNat) % 31 == 0 &&
      flags.toNat / 32 % 2 == 0
    then blocks? data (8 * data.size + 1) 16 #[]
    else none
  | _, _ => none

/-- The lowest `n` bytes of a number, the lowest first. -/
def littleEndian : Nat → Nat → List UInt8
  | 0, _ => []
  | n + 1, v => UInt8.ofNat v :: littleEndian n (v / 256)

/-- The lowest `n` bytes of a number, the highest first. -/
def bigEndian (n v : Nat) : List UInt8 := (littleEndian n v).reverse

/-- The greatest number of bytes in a block that is a copy. -/
def maxCopy : Nat := 65535

/-- Writes bytes as copies in at most `n` blocks. -/
def copies : Nat → List UInt8 → List UInt8
  | 0, _ => []
  | n + 1, bytes =>
    let block := bytes.take maxCopy
    let rest := bytes.drop maxCopy
    let size := block.length
    (if rest.isEmpty then 1 else 0) :: littleEndian 2 size ++ littleEndian 2 (65535 - size) ++ block ++
      if rest.isEmpty then [] else copies n rest

/-- Packs bytes without making them fewer. -/
def pack (bytes : List UInt8) : List UInt8 :=
  [0x78, 0x01] ++ copies (bytes.length + 1) bytes ++ bigEndian 4 (runningSums bytes).toNat

end Perimeter.Packed
