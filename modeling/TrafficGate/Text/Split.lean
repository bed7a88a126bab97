/-!
# Texts cut at a character
-/

namespace TrafficGate

namespace Text

/-- The pieces of a text between the characters that cut it. There is one
piece more than there are cuts. -/
def split (cut : Char → Bool) : List Char → List (List Char)
  | [] => [[]]
  | c :: rest =>
    if cut c then [] :: split cut rest
    else
      match split cut rest with
      | [] => [[c]]
      | p :: ps => (c :: p) :: ps

/-- What stands before the first character that cuts, and what stands
behind it if there is one. -/
def cutFirst (cut : Char → Bool) : List Char → List Char × Option (List Char)
  | [] => ([], none)
  | c :: rest =>
    if cut c then ([], some rest)
    else
      let (before, behind) := cutFirst cut rest
      (c :: before, behind)

end Text

end TrafficGate
