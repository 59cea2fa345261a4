/-
**Balanced regions.** A region starts with an opening bracket and ends with the closing bracket that
matches it, counting only brackets of the same kind and skipping string literals.
-/

namespace TypedScript.Text

/-- A text cut in two, if the cut was found, with one more character in front of its first part. -/
def consCut (c : Char) (cut : Option (List Char × List Char)) : Option (List Char × List Char) :=
  cut.map fun (front, back) => (c :: front, back)

/-- Reads on inside a region, `depth` brackets below its opening one and inside of a string literal
or not. In a literal a backslash is taken in together with the character behind it. -/
def regionFrom (opener closer : Char) : Bool → Nat → List Char → Option (List Char × List Char)
  | _, _, [] => none
  | true, depth, '\\' :: escaped :: rest =>
    consCut '\\' (consCut escaped (regionFrom opener closer true depth rest))
  | true, depth, c :: rest => consCut c (regionFrom opener closer (c != '"') depth rest)
  | false, depth, c :: rest =>
    if c = '"' then consCut c (regionFrom opener closer true depth rest)
    else if c = opener then consCut c (regionFrom opener closer false (depth + 1) rest)
    else if c = closer then
      match depth with
      | 0 => some ([], rest)
      | outer + 1 => consCut c (regionFrom opener closer false outer rest)
    else consCut c (regionFrom opener closer false depth rest)

/-- The interior of the region that the text starts with, and what follows the region. There is no
result if the text does not start with the opening bracket or the region never closes. -/
def balanced (opener closer : Char) : List Char → Option (List Char × List Char)
  | [] => none
  | first :: rest => if first = opener then regionFrom opener closer false 0 rest else none

end TypedScript.Text
