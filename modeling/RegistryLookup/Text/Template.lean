/-!
# Templates

A template is a text with places that are filled with a value.

* `fill_of_not_mem`: a template without the first character of the place stays as it is.
-/

namespace RegistryLookup.Text

/-- Fill every place in a template, from left to right. The first `skip` characters belong to a
place that is filled already. -/
def fillFrom (place value : List Char) : Nat → List Char → List Char
  | _, [] => []
  | skip + 1, _ :: rest => fillFrom place value skip rest
  | 0, c :: rest =>
    if place.isPrefixOf (c :: rest) then value ++ fillFrom place value (place.length - 1) rest
    else c :: fillFrom place value 0 rest

/-- A template with every place filled. -/
def fill (place value template : String) : String :=
  String.ofList (fillFrom place.toList value.toList 0 template.toList)

theorem fill_of_not_mem {a : Char} {place value cs : List Char} (h : a ∉ cs) :
    fillFrom (a :: place) value 0 cs = cs := by
  induction cs with
  | nil => rfl
  | cons c rest ih =>
    simp only [List.mem_cons, not_or] at h
    have hp : (a :: place).isPrefixOf (c :: rest) = false := by
      simp [List.isPrefixOf, h.1]
    simp [fillFrom, hp, ih h.2]

end RegistryLookup.Text
