import SkillLint.Text.CaseTable

/-!
# Lower case

`lowercase` maps a text to lower case as Unicode does without regard to language.  Two
characters need more than a table: the capital I with a dot becomes two characters, and
the capital sigma becomes a final sigma at the end of a word.
-/

namespace SkillLint.Text

/-- The number lies in one of the ranges. -/
def inRanges (ranges : List (Nat × Nat)) (n : Nat) : Bool :=
  ranges.any fun (first, last) => first ≤ n && n ≤ last

/-- The lower case form of a character by the table. -/
def lowercaseChar (c : Char) : Char :=
  let n := c.toNat
  match lowercaseRanges.find? fun (first, last, step, _) =>
      first ≤ n && n ≤ last && (n - first) % step == 0 with
  | some (_, _, _, distance) => Char.ofNat ((n : Int) + distance).toNat
  | none => c

/-- The next character that counts for letter case is cased. -/
def nextIsCased (s : List Char) : Bool :=
  match s.dropWhile fun c => inRanges caseIgnorableRanges c.toNat with
  | c :: _ => inRanges casedRanges c.toNat
  | [] => false

/-- Maps a text to lower case; `before` holds the characters before it, the nearest
first.  A sigma is final after a cased character and before none. -/
def lowercaseAfter (before : List Char) : List Char → List Char
  | [] => []
  | c :: rest =>
    let lower :=
      if c == '\u0130' then ['i', '\u0307']
      else if c == '\u03A3' then
        (if nextIsCased before && !nextIsCased rest then ['\u03C2'] else ['\u03C3'])
      else [lowercaseChar c]
    lower ++ lowercaseAfter (c :: before) rest

/-- The text in lower case. -/
def lowercase (s : List Char) : List Char := lowercaseAfter [] s

end SkillLint.Text
