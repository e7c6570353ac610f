/-!
# Searching a text

Three ways to look into a text, all from the left:

* `dropPrefix? p s`: what follows `p` at the start of `s` (`dropPrefix?_eq_some_iff`);
* `cutAt? p s`: the parts of `s` before and after the first occurrence of `p`;
* `restAfter? m s`: what follows the leftmost match of a matcher, where a **matcher**
  is a function that, at the start of a text, either fails or answers what follows
  its match.
-/

namespace SkillLint.Text

/-- What follows the prefix `p`, if the text starts with it. -/
def dropPrefix? : List Char → List Char → Option (List Char)
  | [], s => some s
  | _ :: _, [] => none
  | p :: ps, c :: cs => if p = c then dropPrefix? ps cs else none

/-- `dropPrefix?` answers exactly the text that completes the prefix. -/
theorem dropPrefix?_eq_some_iff {p s r : List Char} :
    dropPrefix? p s = some r ↔ s = p ++ r := by
  induction p generalizing s with
  | nil => simp [dropPrefix?, eq_comm]
  | cons a p ih =>
    cases s with
    | nil => simp [dropPrefix?]
    | cons c s => by_cases h : a = c <;> simp [dropPrefix?, h, ih, eq_comm]

/-- The text starts with `p`. -/
def startsWith (p s : List Char) : Bool := (dropPrefix? p s).isSome

/-- The text ends with `p`. -/
def endsWith (p s : List Char) : Bool := startsWith p.reverse s.reverse

/-- The text before the first occurrence of `p`, and the text after it. -/
def cutAt? (p : List Char) : List Char → Option (List Char × List Char)
  | [] => (dropPrefix? p []).map ([], ·)
  | c :: cs =>
    match dropPrefix? p (c :: cs) with
    | some rest => some ([], rest)
    | none => (cutAt? p cs).map fun (before, after) => (c :: before, after)

/-- A cut loses nothing. -/
theorem eq_of_cutAt? {p s b a : List Char} (h : cutAt? p s = some (b, a)) :
    s = b ++ p ++ a := by
  induction s generalizing b a with
  | nil =>
    simp only [cutAt?, Option.map_eq_some_iff, Prod.mk.injEq] at h
    obtain ⟨r, hr, rfl, rfl⟩ := h
    simpa using dropPrefix?_eq_some_iff.1 hr
  | cons c s ih =>
    rw [cutAt?] at h
    split at h
    · rename_i r hr
      obtain ⟨rfl, rfl⟩ := by simpa using h
      simpa using dropPrefix?_eq_some_iff.1 hr
    · simp only [Option.map_eq_some_iff, Prod.mk.injEq] at h
      obtain ⟨⟨b', a'⟩, hcut, rfl, rfl⟩ := h
      simpa using ih hcut

/-- The text occurs somewhere. -/
def occursIn (p s : List Char) : Bool := (cutAt? p s).isSome

/-- What follows the leftmost match of the matcher `m`. -/
def restAfter? (m : List Char → Option (List Char)) : List Char → Option (List Char)
  | [] => m []
  | c :: cs =>
    match m (c :: cs) with
    | some rest => some rest
    | none => restAfter? m cs

end SkillLint.Text
