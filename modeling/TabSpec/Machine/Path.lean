import TabSpec.Text.Cut

/-! Paths as texts. They are joined as written and not tidied. -/
namespace TabSpec.Path

def isAbsolute (path : String) : Bool := path.toList.head? == some '/'

/-- A path below another one; an absolute path stands for itself. -/
def join (base path : String) : String :=
  if isAbsolute path then path
  else if base = "" || Text.endsWith "/" base then base ++ path
  else base ++ "/" ++ path

/-- A path, as its parts between slashes. -/
def components (path : String) : List String :=
  (path.toList.splitOn '/').map String.ofList

/-- A path without the empty parts and the single dots at its end. -/
private def trimEnd : (fuel : Nat) → List Char → List Char
  | 0, reversed => reversed
  | fuel + 1, reversed =>
    match reversed with
    | ['/'] => reversed
    | '/' :: rest => trimEnd fuel rest
    | '.' :: '/' :: rest => trimEnd fuel ('/' :: rest)
    | _ => reversed

/-- The path above a path, unless it is the root or empty. -/
def parent? (path : String) : Option String :=
  let reversed := path.toList.reverse
  match trimEnd reversed.length reversed with
  | [] => none
  | ['/'] => none
  | trimmed =>
    let above := trimmed.dropWhile (· != '/')
    some (String.ofList (trimEnd above.length above).reverse)

private theorem trimEnd_subset (fuel : Nat) (reversed : List Char) :
    trimEnd fuel reversed ⊆ reversed := by
  induction fuel generalizing reversed with
  | zero => exact List.Subset.refl _
  | succ fuel ih =>
    simp only [trimEnd]
    split
    · exact List.Subset.refl _
    · exact List.subset_cons_of_subset _ (ih _)
    · exact List.subset_cons_of_subset _ (ih _)
    · exact List.Subset.refl _

/-- A path above another one is made of its characters. -/
theorem subset_of_parent? {path above : String} (found : parent? path = some above) :
    above.toList ⊆ path.toList := by
  simp only [parent?] at found
  have trimmed := trimEnd_subset path.toList.reverse.length path.toList.reverse
  split at found
  · cases found
  · cases found
  · rw [← Option.some.inj found]
    intro c member
    rw [String.toList_ofList, List.mem_reverse] at member
    have inside := (List.dropWhile_suffix _).subset (trimEnd_subset _ _ member)
    exact List.mem_reverse.mp (trimmed inside)

/-- The path that lies `levels` above a path. -/
def ancestor? (path : String) : (levels : Nat) → Option String
  | 0 => some path
  | levels + 1 => (parent? path).bind (ancestor? · levels)

theorem subset_of_ancestor? {path above : String} {levels : Nat}
    (found : ancestor? path levels = some above) : above.toList ⊆ path.toList := by
  induction levels generalizing path with
  | zero =>
    rw [← Option.some.inj found]
    exact List.Subset.refl _
  | succ levels ih =>
    obtain ⟨parent, first, further⟩ := Option.bind_eq_some_iff.mp found
    exact List.Subset.trans (ih further) (subset_of_parent? first)

/-- A path and all paths above it, from the inside out. -/
def ancestors (path : String) : List String :=
  (List.range (path.length + 1)).filterMap (ancestor? path)

/-- The last part of a path. -/
def fileName (path : String) : String :=
  match (components path).filter (· != "") with
  | [] => ""
  | parts => parts.getLast?.getD ""

end TabSpec.Path
