import Perimeter.Proofs.Region.Labels

/-!
# Labels in words

A word of 32 bits holds the labels of all regions as long as there are fewer than `2 ^ 31` of each
colour. Visits only add regions, so a label that is held at the end was held when it was written, and
the labels in words are then those of `Labeling.of`.
-/

namespace Perimeter

namespace Picture

variable {p : Picture}

/-- The regions of each colour can be numbered with 31 bits. -/
def FewRegions (p : Picture) : Prop := ∀ ink, (p.firsts ink).length < 2147483648

/-- There are no more regions than pixels. -/
theorem fewRegions_of_size (h : p.size < 2147483648) : p.FewRegions := by
  intro ink
  have hle : (p.firsts ink).length ≤ p.size := by
    rw [firsts, pixels_eq]
    exact (List.length_filter_le _ _).trans (by simp)
  omega

theorem length_firstsTo_size_le (p : Picture) (withBackground ink : Bool) :
    (p.firstsTo withBackground ink p.size).length ≤ (p.firsts ink).length := by
  cases h : ink || withBackground with
  | true => rw [p.firstsTo_size h]
  | false => simp [firstsTo, h]

end Picture

namespace Labeling

variable {p : Picture} {l : Labeling} {keep : Int → Int} {withBackground ink : Bool} {k n : Nat}

/-- A visit leaves the size of the picture as it is. -/
theorem visit_frame (hwidth : l.width = p.width.toNat) (hheight : l.height = p.height.toNat)
    (keep : Int → Int) (withBackground : Bool) (k : Nat) :
    (l.visit keep p withBackground k).width = p.width.toNat ∧
      (l.visit keep p withBackground k).height = p.height.toNat := by
  rw [visit_eq hwidth hheight]
  split_ifs
  · exact ⟨hwidth, hheight⟩
  · exact ⟨hwidth, hheight⟩

/-- A visit takes no region away. -/
theorem size_regions_le_visit (hwidth : l.width = p.width.toNat) (hheight : l.height = p.height.toNat) :
    (l.regions ink).size ≤ ((l.visit keep p withBackground k).regions ink).size := by
  rw [visit_eq hwidth hheight]
  split_ifs
  · rw [regions_grow]
    split_ifs with hink
    · rw [hink, Array.size_push]
      omega
    · exact Nat.le_refl _
  · exact Nat.le_refl _

theorem size_regions_le_visitFrom (hwidth : l.width = p.width.toNat)
    (hheight : l.height = p.height.toNat) :
    (l.regions ink).size ≤ ((l.visitFrom keep p withBackground n k).regions ink).size := by
  induction n generalizing k l with
  | zero => exact Nat.le_refl _
  | succ n ih =>
    obtain ⟨hwidth', hheight'⟩ := visit_frame hwidth hheight keep withBackground k
    exact (size_regions_le_visit hwidth hheight).trans (ih hwidth' hheight')

/-- A visit writes the label of the region that it adds, if that is kept. -/
theorem visit_keep (hwidth : l.width = p.width.toNat) (hheight : l.height = p.height.toNat)
    (hkeep : ∀ ink i, i < ((l.visit id p withBackground k).regions ink).size →
      keep (code ink i) = code ink i) :
    l.visit keep p withBackground k = l.visit id p withBackground k := by
  rw [visit_eq hwidth hheight] at hkeep
  rw [visit_eq hwidth hheight, visit_eq hwidth hheight]
  split_ifs at hkeep ⊢ with hnew
  · rw [hkeep _ _ (by rw [regions_grow, if_pos rfl, Array.size_push]; omega), id]
  · rfl

/-- Visits write the labels of the regions that there are after them, if these are kept. -/
theorem visitFrom_keep (hwidth : l.width = p.width.toNat) (hheight : l.height = p.height.toNat)
    (hkeep : ∀ ink i, i < ((l.visitFrom id p withBackground n k).regions ink).size →
      keep (code ink i) = code ink i) :
    l.visitFrom keep p withBackground n k = l.visitFrom id p withBackground n k := by
  induction n generalizing k l with
  | zero => rfl
  | succ n ih =>
    obtain ⟨hwidth', hheight'⟩ := visit_frame hwidth hheight id withBackground k
    have hvisit : l.visit keep p withBackground k = l.visit id p withBackground k :=
      visit_keep hwidth hheight fun ink i hi =>
        hkeep ink i (hi.trans_le (size_regions_le_visitFrom hwidth' hheight'))
    rw [visitFrom, visitFrom, hvisit]
    exact ih hwidth' hheight' hkeep

/-- A clean buffer gets the labels of the picture, if those of all its regions are kept. -/
theorem into_eq_of (withBackground : Bool)
    (hkeep : ∀ ink i, i < (p.firsts ink).length → keep (code ink i) = code ink i) :
    into keep p withBackground (Array.replicate (p.width.toNat * p.height.toNat) 0) =
      of p withBackground := by
  refine visitFrom_keep rfl rfl fun ink i hi => hkeep ink i ?_
  have hsize : ((of p withBackground).regions ink).size =
      (p.firstsTo withBackground ink p.size).length := by
    rw [← Array.length_toList, (labeled_of p withBackground).regions, List.length_map]
  have hle := p.length_firstsTo_size_le withBackground ink
  rw [← hsize] at hle
  exact hi.trans_le hle

/-- A word of 32 bits keeps the labels of few regions. -/
theorem wrap32_code (hfew : p.FewRegions) {i : Nat} (hi : i < (p.firsts ink).length) :
    wrap32 (code ink i) = code ink i := by
  have hlength := hfew ink
  refine wrap32_eq_self ?_
  cases ink <;> simp only [code, if_true, Bool.false_eq_true, if_false] <;> omega

end Labeling

end Perimeter
