import Mathlib.Data.List.Rotate
import Mathlib.Data.Nat.Cast.Basic
import Mathlib.Tactic.Ring
import Perimeter.Edge

/-!
# Lines of pixels

The distance of two pixels is the number of steps to neighbours, by side or corner, that lead from one to
the other. Along a row, a column or a diagonal these are equal steps, and the pixels on the way are known
from the ends. So a path of such lines stands for the path through all the pixels on them.
-/

namespace Perimeter

variable {a b : Point}

namespace Point

variable {u v : Int} {m n : Nat}

/-- The number of steps to neighbours, by side or corner, that lead from the one pixel to the other. -/
def distance (a b : Point) : Nat := max (b.x - a.x).natAbs (b.y - a.y).natAbs

theorem distance_self (a : Point) : a.distance a = 0 := by
  simp [distance]

theorem shift_x_sub (a : Point) (u v : Int) : (a.shift u v).x - a.x = u := by simp [shift]
theorem shift_y_sub (a : Point) (u v : Int) : (a.shift u v).y - a.y = v := by simp [shift]

/-- The offset is that of a neighbour. -/
def IsUnit (u v : Int) : Prop := max u.natAbs v.natAbs = 1

/-- A positive number of equal steps to a neighbour leads from the one pixel to the other. -/
def Straight (a b : Point) : Prop :=
  ∃ (n : Nat) (u v : Int), 0 < n ∧ IsUnit u v ∧ b = a.shift (n * u) (n * v)

theorem shift_shift (a : Point) (u v : Int) (m n : Nat) :
    (a.shift (m * u) (m * v)).shift (n * u) (n * v) =
      a.shift ((m + n : Nat) * u) ((m + n : Nat) * v) := by
  simp only [shift, Point.mk.injEq, Nat.cast_add]
  exact ⟨by ring, by ring⟩

theorem distance_shift (a : Point) (h : IsUnit u v) (n : Nat) :
    a.distance (a.shift (n * u) (n * v)) = n := by
  rw [distance, shift_x_sub, shift_y_sub, Int.natAbs_mul, Int.natAbs_mul, Int.natAbs_natCast,
    Nat.mul_max_mul_left, h, Nat.mul_one]

theorem Straight.ne (h : a.Straight b) : a ≠ b := by
  obtain ⟨n, u, v, hn, hunit, hb⟩ := h
  have hdistance := distance_shift a hunit n
  rw [← hb] at hdistance
  rintro rfl
  rw [distance_self] at hdistance
  omega

/-- The pixels on the straight line from the one pixel to the other, without the last one. -/
def stepsTo (a b : Point) : List Point :=
  (List.range (a.distance b)).map fun (i : Nat) =>
    a.shift (i * (b.x - a.x).sign) (i * (b.y - a.y).sign)

theorem stepsTo_shift (a : Point) (h : IsUnit u v) (n : Nat) :
    a.stepsTo (a.shift (n * u) (n * v)) =
      (List.range n).map fun (i : Nat) => a.shift (i * u) (i * v) := by
  rw [stepsTo, distance_shift a h]
  refine List.map_congr_left fun i hi => ?_
  -- There is a pixel on the line, so its length has a sign.
  have hpos : 0 < n := Nat.zero_lt_of_lt (List.mem_range.1 hi)
  have hn : (n : Int).sign = 1 := Int.sign_eq_one_of_pos (Int.natCast_pos.2 hpos)
  have hsign : ∀ w : Int, w.natAbs ≤ 1 → w.sign = w := by
    intro w hw
    obtain rfl | rfl | rfl : w = -1 ∨ w = 0 ∨ w = 1 := by omega
    all_goals rfl
  simp only [IsUnit] at h
  rw [shift_x_sub, shift_y_sub, Int.sign_mul, Int.sign_mul, hn, one_mul, one_mul, hsign u (by omega),
    hsign v (by omega)]

/-- The line through a pixel on it. -/
theorem stepsTo_shift_add (a : Point) (h : IsUnit u v) (m n : Nat) :
    a.stepsTo (a.shift ((m + n : Nat) * u) ((m + n : Nat) * v)) =
      a.stepsTo (a.shift (m * u) (m * v)) ++
        (a.shift (m * u) (m * v)).stepsTo (a.shift ((m + n : Nat) * u) ((m + n : Nat) * v)) := by
  rw [← shift_shift, stepsTo_shift _ h n, shift_shift, stepsTo_shift a h, stepsTo_shift a h,
    List.range_add, List.map_append, List.map_map]
  congr 1
  refine List.map_congr_left fun i _ => ?_
  rw [shift_shift]
  rfl

/-- A neighbour is a straight line away, without pixels between. -/
theorem stepsTo_of_distance_eq_one (h : a.distance b = 1) : a.stepsTo b = [a] := by
  rw [stepsTo, h]
  simp [shift]

end Point

/-! ## Paths of lines -/

/-- The pixels on a path of straight lines, without the last one. -/
def trail : List Point → List Point
  | a :: b :: rest => a.stepsTo b ++ trail (b :: rest)
  | _ => []

theorem trail_concat (a z : Point) (l : List Point) :
    trail (a :: (l ++ [z])) = trail (a :: l) ++ (l.getLastD a).stepsTo z := by
  induction l generalizing a with
  | nil => simp [trail]
  | cons b l ih => rw [List.cons_append, trail, ih, trail, List.append_assoc, List.getLastD_cons]

/-- The pixels on the lines of a closed contour. -/
def expand : List Point → List Point
  | [] => []
  | a :: rest => trail (a :: (rest ++ [a]))

/-- A closed contour without its first pixel, which is on the line from the last one to the second. -/
theorem expand_isRotated {l : List Point}
    (h : (l.getLastD b).stepsTo b = (l.getLastD b).stepsTo a ++ a.stepsTo b) :
    expand (b :: l) ~r expand (a :: b :: l) := by
  have hwith : expand (a :: b :: l) = a.stepsTo b ++ trail (b :: (l ++ [a])) := rfl
  have hwithout : expand (b :: l) = trail (b :: (l ++ [a])) ++ a.stepsTo b := by
    -- The line that closes the contour passes through the pixel that is left out.
    rw [expand, trail_concat, h, ← List.append_assoc, ← trail_concat]
  rw [hwith, hwithout]
  exact List.isRotated_append

end Perimeter
