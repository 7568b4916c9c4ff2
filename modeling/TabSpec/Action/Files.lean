import TabSpec.Action.Basic

/-! Actions that offer files, directories and executables. -/
namespace TabSpec.Action

/-- The directory typed so far with its slash, and the name behind it. -/
def typedPath (value : String) : String × String :=
  match Text.splitLast? "/" value with
  | some (directory, name) => (directory ++ "/", name)
  | none => ("", value)

/-- The candidate for one name in a directory, if it is wanted. -/
def fileCandidate? (files : FileTree) (search typed : String) (suffixes : Option (List String))
    (name : String) : Option Suggestion :=
  let tag := if suffixes.isSome then "files" else "directories"
  if files.isDirectory (Path.join search name) then
    some { value := typed ++ name ++ "/", display := name ++ "/", tag }
  else
    match suffixes with
    | none => none
    | some suffixes =>
      if suffixes.isEmpty || suffixes.any fun suffix => Text.endsWith suffix name then
        some { value := typed ++ name, display := name, tag }
      else none

/-- Offer the names below the typed path; hidden ones only behind a typed dot. -/
def listing (suffixes : Option (List String)) : Action := fun context =>
  let (typed, base) := typedPath context.value
  let search := if typed = "" then context.directory else context.resolve typed
  match context.machine.files.list search with
  | .error fault => pure (.ofMessage (search ++ ": " ++ fault.message))
  | .ok names =>
    let shown := names.filter fun name => !Text.startsWith "." name || Text.startsWith "." base
    let found := shown.filterMap (fileCandidate? context.machine.files search typed suffixes)
    let sorted := found.mergeSort fun first second => decide (first.value ≤ second.value)
    pure ((Completion.ofSuggestions sorted).addNospace "/")

/-- Offer directories, and files whose name ends in one of the suffixes, if any are given. -/
def files (suffixes : List String) : Action := listing (some suffixes)

def directories : Action := listing none

/-- Offer the executables in directories, or in those of the search path. -/
def executables (directories : List String) : Action := fun context =>
  let search :=
    if directories.isEmpty then
      match context.get? "PATH" with
      | some path => Text.split ":" path
      | none => []
    else directories.map context.resolve
  let files := context.machine.files
  let found := search.flatMap fun directory =>
    let names := ((files.list directory).toOption).getD []
    (names.filter fun name => files.isExecutable (Path.join directory name)).map fun name =>
      (Suggestion.described name directory).tagged "executables"
  let distinct := Completion.addSuggestions [] found
  pure (.ofSuggestions (distinct.mergeSort fun first second => decide (first.value ≤ second.value)))

end TabSpec.Action
