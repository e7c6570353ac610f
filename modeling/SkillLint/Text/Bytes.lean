/-!
# The size of a text

The size of a text in bytes, in the UTF-8 form in which texts are stored.
-/

namespace SkillLint.Text

/-- The number of bytes that a text takes. -/
def byteLength (s : List Char) : Nat := s.foldl (fun n c => n + c.utf8Size) 0

end SkillLint.Text
