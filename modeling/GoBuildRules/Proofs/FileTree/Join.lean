import Mathlib.Data.List.Basic
import GoBuildRules.FileTree

/-!
# Components of joined paths

The components of a spelling are its start, which is the root or a `.`, and the steps of its
segments. A path that is taken from another adds its steps to the components of that
(`components_join`).
-/

namespace GoBuildRules

namespace Path

theorem length_startOf_le (bytes : List UInt8) : (startOf bytes).length ≤ 1 := by
  rw [startOf]
  split
  · exact Nat.le_refl 1
  · split
    · exact Nat.le_refl 1
    · exact Nat.zero_le 1

theorem splitOn_append_slash (front bytes : List UInt8) :
    (front ++ slash :: bytes).splitOn slash = front.splitOn slash ++ bytes.splitOn slash :=
  List.splitOn_append_cons_self front bytes

theorem stepsOf_append_slash (front bytes : List UInt8) :
    stepsOf (front ++ slash :: bytes) = stepsOf front ++ stepsOf bytes := by
  rw [stepsOf, splitOn_append_slash, List.filterMap_append, stepsOf, stepsOf]

theorem startOf_append_slash {front : List UInt8} (h : front ≠ []) (bytes : List UInt8) :
    startOf (front ++ slash :: bytes) = startOf front := by
  rw [startOf, startOf, splitOn_append_slash, List.head?_append_of_ne_nil front h,
    List.head?_append_of_ne_nil _ (List.splitOn_ne_nil _ _)]

/-- A spelling that goes on after a slash has the components of both sides. -/
theorem components_append_slash {front : List UInt8} (h : front ≠ []) (bytes : List UInt8) :
    components ⟨front ++ slash :: bytes⟩ = components ⟨front⟩ ++ stepsOf bytes := by
  rw [components, startOf_append_slash h, stepsOf_append_slash, components, List.append_assoc]

theorem exists_ofSegment? {segment : List UInt8} (hempty : segment ≠ []) (hdot : segment ≠ [dot]) :
    ∃ step, Component.ofSegment? segment = some step := by
  rw [Component.ofSegment?, if_neg (not_or.mpr ⟨hempty, hdot⟩)]
  split
  · exact ⟨_, rfl⟩
  · exact ⟨_, rfl⟩

/-- Only the empty spelling has no components. -/
theorem components_ne_nil {p : Path} (h : p.bytes ≠ []) : p.components ≠ [] := by
  obtain ⟨b, rest, hbytes⟩ := List.exists_cons_of_ne_nil h
  rw [components, startOf]
  split
  · exact List.cons_ne_nil _ _
  · rename_i hslash
    -- The first segment is not empty; it is a `.` at the start, which is kept, or a step.
    have hb : ¬ (b == slash) = true := by simpa [hbytes] using hslash
    cases hrest : rest.splitOn slash with
    | nil => exact absurd hrest (List.splitOn_ne_nil _ _)
    | cons first segments =>
      have hsplit : p.bytes.splitOn slash = (b :: first) :: segments := by
        rw [hbytes, List.splitOn_cons_eq_if_modifyHead, if_neg hb, hrest]
        rfl
      rw [stepsOf, hsplit]
      split
      · exact List.cons_ne_nil _ _
      · rename_i hdot
        have hne : b :: first ≠ [dot] := fun heq => hdot (congrArg some heq)
        obtain ⟨step, hstep⟩ := exists_ofSegment? (List.cons_ne_nil b first) hne
        rw [List.nil_append, List.filterMap_cons_some hstep]
        exact List.cons_ne_nil _ _

/-- The components of a path that is taken from another: all its steps but the `.` at its start. -/
theorem components_join {p q : Path} (hq : q.isAbsolute = false) (hp : p.bytes ≠ []) :
    (p.join q).components = p.components ++ stepsOf q.bytes := by
  rw [join, hq, if_neg Bool.false_ne_true]
  split
  · rename_i hend
    obtain ⟨front, hfront⟩ := List.getLast?_eq_some_iff.mp (hend.resolve_left hp)
    obtain ⟨bytes⟩ := p
    obtain rfl : bytes = front ++ [slash] := hfront
    rw [List.append_assoc, List.singleton_append]
    cases front with
    | nil => rfl
    | cons b front =>
      have hnil : stepsOf [] = [] := rfl
      rw [components_append_slash (List.cons_ne_nil _ _), components_append_slash
        (List.cons_ne_nil _ _), hnil, List.append_nil]
  · exact components_append_slash hp q.bytes

theorem join_of_isAbsolute {p q : Path} (hq : q.isAbsolute = true) : p.join q = q := by
  rw [join, hq, if_pos rfl]

theorem join_of_bytes_eq_nil {p : Path} (hp : p.bytes = []) (q : Path) : p.join q = q := by
  rw [join, if_pos (Or.inl hp), hp, List.nil_append, ite_self]

/-- What is taken from a path that is not empty has components. -/
theorem components_join_ne_nil {p : Path} (hp : p.bytes ≠ []) (q : Path) :
    (p.join q).components ≠ [] := by
  cases hq : q.isAbsolute with
  | true =>
    rw [join_of_isAbsolute hq]
    refine components_ne_nil fun hempty => ?_
    rw [isAbsolute, hempty] at hq
    cases hq
  | false =>
    rw [components_join hq hp]
    exact List.append_ne_nil_of_left_ne_nil (components_ne_nil hp) _

end Path

end GoBuildRules
