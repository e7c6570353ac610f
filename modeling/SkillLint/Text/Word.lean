/-!
# Words in any case

A word in a pattern is written in lower case and found in any case.  Case is disregarded
for the ASCII letters only, which is to say that every character stands for its fold
(`foldCase`); two letters outside ASCII have a fold inside.
-/

namespace SkillLint.Text

/-- The character without regard to case, as far as ASCII letters are concerned: two
letters outside ASCII fold to one inside, the long s and the sign for kelvin. -/
def foldCase (c : Char) : Char :=
  if c == '\u017F' then 's' else if c == '\u212A' then 'k' else c.toLower

/-- What follows the word, which is given in lower case, in any case. -/
def dropWord? (word s : List Char) : Option (List Char) :=
  if (s.take word.length).map foldCase = word then some (s.drop word.length) else none

end SkillLint.Text
