import GoBuildRules.Proofs.FileTree.Name

/-!
# Spellings of directories

A directory has many spellings: slashes may be repeated or follow the last name, and `.` may stand
between any two of them. What counts are the steps between (`Path.steps`), and they are the
components of an absolute path (`components_of_isAbsolute`). So the part of a directory below a root
is made of the names that lead there, however the two are spelled (`relativeTo_of_spells`).
-/

namespace GoBuildRules

open GoBuildRules.Path (slash dot)

/-- The component that a step stands for. -/
def Component.ofStep (step : List UInt8) : Component :=
  if step = [dot, dot] then .up else .name step

@[simp]
theorem Component.bytes_ofStep (step : List UInt8) : (ofStep step).bytes = step := by
  unfold ofStep
  split
  · rename_i h
    exact h.symm
  · rfl

namespace Path

/-- Whether the bytes between two slashes are a step: there are some, and they are no `.`. -/
def isStep (bytes : List UInt8) : Bool :=
  bytes != [] && bytes != [dot]

/-- What stands between the slashes of a spelling, without what is empty between repeated slashes or
after the last one, and without every `.`. -/
def steps (p : Path) : List (List UInt8) :=
  (p.bytes.splitOn slash).filter isStep

/-- Whether `dir` is a spelling of the directory to which the names lead from `root`. -/
structure Spells (root : Path) (names : List String) (dir : Path) : Prop where
  isAbsolute : dir.isAbsolute = true
  steps_eq : dir.steps = root.steps ++ names.map Utf8.encode

variable {p root dir : Path} {names : List String}

theorem slash_notMem_of_mem_steps {step : List UInt8} (h : step ∈ p.steps) : slash ∉ step :=
  slash_not_mem_of_mem_splitOn (List.mem_filter.mp h).1

theorem ofSegment?_eq (segment : List UInt8) :
    Component.ofSegment? segment =
      if isStep segment then some (Component.ofStep segment) else none := by
  have hstep : isStep segment = true ↔ ¬ (segment = [] ∨ segment = [dot]) := by
    simp only [isStep, Bool.and_eq_true, bne_iff_ne, ne_eq, not_or]
  by_cases hnone : segment = [] ∨ segment = [dot]
  · rw [Component.ofSegment?, if_pos hnone, if_neg fun h => hstep.mp h hnone]
  · rw [Component.ofSegment?, if_neg hnone, if_pos (hstep.mpr hnone), Component.ofStep]
    split <;> rfl

theorem filterMap_ofSegment? (segments : List (List UInt8)) :
    segments.filterMap Component.ofSegment? = (segments.filter isStep).map Component.ofStep := by
  induction segments with
  | nil => rfl
  | cons segment segments ih =>
    rw [List.filterMap_cons, ih, ofSegment?_eq, List.filter_cons]
    by_cases h : isStep segment = true
    · rw [if_pos h, if_pos h, List.map_cons]
    · rw [if_neg h, if_neg h]

/-- The components of an absolute path are the root and its steps. -/
theorem components_of_isAbsolute (h : p.isAbsolute = true) :
    p.components = .root :: p.steps.map Component.ofStep := by
  rw [components, startOf, if_pos (of_decide_eq_true h), stepsOf, filterMap_ofSegment?, steps]
  rfl

/-- The components of a directory below the root are those of the names. -/
theorem componentsBelow_of_spells (hroot : root.isAbsolute = true) (h : root.Spells names dir) :
    componentsBelow root dir = (names.map Utf8.encode).map Component.ofStep := by
  have hcomponents :
      dir.components = root.components ++ (names.map Utf8.encode).map Component.ofStep := by
    rw [components_of_isAbsolute hroot, components_of_isAbsolute h.isAbsolute, h.steps_eq,
      List.map_append, List.cons_append]
  have hbelow : root.components.isPrefixOf dir.components = true := by
    rw [List.isPrefixOf_iff_prefix, hcomponents]
    exact List.prefix_append _ _
  rw [componentsBelow, if_pos hbelow, hcomponents, List.drop_left]

/-- The part of a directory below the root is made of the names that lead there. -/
theorem relativeTo_of_spells (hroot : root.isAbsolute = true) (h : root.Spells names dir) :
    relativeTo root dir = "/".intercalate names := by
  have htext : ∀ name, (Component.ofStep (Utf8.encode name)).text = name := fun name => by
    rw [Component.text, Component.bytes_ofStep, Utf8.lossyText_encode]
  have hnames : ∀ name ∈ names, name ≠ "/" := by
    rintro name hname rfl
    have hmem : Utf8.encode "/" ∈ dir.steps := by
      rw [h.steps_eq]
      exact List.mem_append_right _ (List.mem_map_of_mem hname)
    exact slash_notMem_of_mem_steps hmem (by decide)
  have hfilter : names.filter (fun text => text != "/") = names :=
    List.filter_eq_self.mpr fun name hname => bne_iff_ne.mpr (hnames name hname)
  rw [relativeTo, componentsBelow_of_spells hroot h, List.map_map, List.map_map]
  simp only [Function.comp_def, htext, List.map_id', hfilter]

end Path

end GoBuildRules
