/-!
# Pieces of a list

A list is cut at every occurrence of a separator.  There is always one piece
more than there are separators, and pieces may be empty.
-/

namespace Metastring

/-- The pieces between the separators. -/
def pieces {α : Type} [DecidableEq α] (separator : α) :
    List α → List (List α)
  | [] => [[]]
  | item :: rest =>
    if item = separator then [] :: pieces separator rest
    else
      match pieces separator rest with
      | [] => [[item]]
      | piece :: others => (item :: piece) :: others

end Metastring
