/-!
Cutting a list at a separator.
-/

namespace TrustedRoot.Split

variable {α : Type} [DecidableEq α]

/-- The pieces of a list between separators; there is always at least one. -/
def splitOn (separator : α) : List α → List (List α)
  | [] => [[]]
  | a :: rest =>
    if a = separator then [] :: splitOn separator rest
    else match splitOn separator rest with
      | [] => [[a]]
      | piece :: more => (a :: piece) :: more

/-- What stands before and after the first separator, if there is one. -/
def splitFirst (separator : α) : List α → Option (List α × List α)
  | [] => none
  | a :: rest =>
    if a = separator then some ([], rest)
    else (splitFirst separator rest).map fun (before, after) => (a :: before, after)

end TrustedRoot.Split
