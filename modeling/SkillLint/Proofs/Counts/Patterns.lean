import Mathlib.Computability.Language
import SkillLint.Counts
import SkillLint.Proofs.Rule.WorkflowSteps
import SkillLint.Proofs.Text.Word

/-!
# The words of a pattern

A pattern is a number and words behind it, and the words are a language: blanks and the word for
skills in any case, say.  **The tails of the three patterns hold where words of their languages
stand** (`tells_skillsTail`, `tells_specializedSkillsTail`, `tells_referencesTail`).

The languages are definite (`Definite`): there are no digits in them, and a text begins with one of
their words at most.  So it does not matter in which order the ways to match are tried, nor whether
blanks are matched greedily.
-/

namespace SkillLint.Counts

open SkillLint.Text SkillLint.Markdown
open SkillLint.Rule (IsNumber)

/-! ## Languages -/

/-- Blanks, or nothing. -/
def blanks : Language Char := {s | isAllBlank s = true}

/-- Blanks, at least one. -/
def gaps : Language Char := {s | isAllBlank s = true ∧ s ≠ []}

/-- Decimal digits, at least one. -/
def numbers : Language Char := {s | IsNumber s}

/-- The word, which is given in lower case, in any case. -/
def spellings (word : List Char) : Language Char := {s | s.map foldCase = word}

/-- The word with a small or a capital first letter. -/
def titled (first : Char) (rest : List Char) : Language Char :=
  {s | s = first :: rest ∨ s = first.toUpper :: rest}

/-- Blanks and the word for skills. -/
def skillsWords : Language Char := blanks * spellings "skills".toList

/-- Blanks and the word for skills, which may be called specialized. -/
def specializedSkillsWords : Language Char :=
  blanks * ((spellings "specialized".toList * gaps + 1) * spellings "skills".toList)

/-- Blanks and the words for reference files, with or without blanks between them. -/
def referenceWords : Language Char :=
  blanks * (titled 'r' "eference".toList * (blanks * titled 'f' "iles".toList))

variable {L L' words words' : Language Char} {m m' : List Char → Option (List Char)}
  {s rest run : List Char} {tail : Tail}

/-- The first pattern for skills has all words of the second one. -/
theorem mem_specializedSkillsWords (hs : s ∈ skillsWords) : s ∈ specializedSkillsWords := by
  obtain ⟨gap, hgap, w, hw, rfl⟩ := Language.mem_mul.mp hs
  have hnothing : [] ∈ spellings "specialized".toList * gaps + 1 := Or.inr rfl
  exact Language.append_mem_mul hgap (Language.append_mem_mul hnothing hw)

/-! ## Matchers -/

/-- Every text of the language starts with something that is not blank. -/
def Unspaced (L : Language Char) : Prop := ∀ s ∈ L, ∃ c t, s = c :: t ∧ isBlank c = false

theorem Unspaced.mul (h : Unspaced L) : Unspaced (L * L') := by
  intro s hs
  obtain ⟨x, hx, y, -, rfl⟩ := Language.mem_mul.mp hs
  obtain ⟨c, t, rfl, hc⟩ := h x hx
  exact ⟨c, t ++ y, rfl, hc⟩

theorem recognizes_dropWord? (word : List Char) :
    Recognizes (dropWord? word) (· ∈ spellings word) :=
  fun _ _ => dropWord?_eq_some_iff

theorem recognizes_dropTitled? (first : Char) (rest : List Char) :
    Recognizes (dropTitled? first rest) (· ∈ titled first rest) := by
  intro s r
  constructor
  · intro h
    cases s with
    | nil => cases h
    | cons c s =>
      rw [dropTitled?] at h
      split at h
      · rename_i hc
        obtain rfl := dropPrefix?_eq_some_iff.mp h
        rw [Bool.or_eq_true, beq_iff_eq, beq_iff_eq] at hc
        exact ⟨c :: rest, hc.imp (congrArg (· :: rest)) (congrArg (· :: rest)), rfl⟩
      · cases h
  · rintro ⟨w, rfl | rfl, rfl⟩
    · rw [List.cons_append, dropTitled?, beq_self_eq_true, Bool.true_or, if_pos rfl,
        dropPrefix?_append]
    · rw [List.cons_append, dropTitled?, beq_self_eq_true, Bool.or_true, if_pos rfl,
        dropPrefix?_append]

/-- One after the other. -/
theorem recognizes_mul (hm : Recognizes m (· ∈ L)) (hm' : Recognizes m' (· ∈ L')) :
    Recognizes (fun s => (m s).bind m') (· ∈ L * L') := by
  intro s r
  rw [Option.bind_eq_some_iff]
  constructor
  · rintro ⟨t, hs, ht⟩
    obtain ⟨x, hx, rfl⟩ := (hm s t).mp hs
    obtain ⟨y, hy, rfl⟩ := (hm' t r).mp ht
    exact ⟨x ++ y, Language.append_mem_mul hx hy, (List.append_assoc x y r).symm⟩
  · rintro ⟨w, hw, rfl⟩
    obtain ⟨x, hx, y, hy, rfl⟩ := Language.mem_mul.mp hw
    exact ⟨y ++ r, (hm _ _).mpr ⟨x, hx, List.append_assoc x y r⟩, (hm' _ _).mpr ⟨y, hy, rfl⟩⟩

theorem recognizes_blanks_mul (hm : Recognizes m (· ∈ L)) (hL : Unspaced L) :
    Recognizes (fun s => m (s.dropWhile isBlank)) (· ∈ blanks * L) := by
  intro s r
  constructor
  · intro h
    obtain ⟨x, hx, heq⟩ := (hm _ r).mp h
    refine ⟨s.takeWhile isBlank ++ x, Language.append_mem_mul List.all_takeWhile hx, ?_⟩
    rw [List.append_assoc, ← heq, List.takeWhile_append_dropWhile]
  · rintro ⟨w, hw, rfl⟩
    obtain ⟨gap, hgap, x, hx, rfl⟩ := Language.mem_mul.mp hw
    obtain ⟨c, t, rfl, hc⟩ := hL x hx
    have hdrop : (gap ++ c :: t ++ r).dropWhile isBlank = c :: t ++ r := by
      rw [List.append_assoc, List.cons_append, dropWhile_gap hgap hc]
    exact (hm _ r).mpr ⟨_, hx, hdrop⟩

theorem recognizes_gaps_mul (hm : Recognizes m (· ∈ L)) (hL : Unspaced L) :
    Recognizes (fun s => (dropBlanks? s).bind m) (· ∈ gaps * L) := by
  intro s r
  rw [Option.bind_eq_some_iff]
  constructor
  · rintro ⟨t, hs, ht⟩
    obtain ⟨gap, hgap, hne, rfl⟩ := exists_gap_of_dropBlanks? hs
    obtain ⟨x, hx, rfl⟩ := (hm t r).mp ht
    exact ⟨gap ++ x, Language.append_mem_mul ⟨hgap, hne⟩ hx, (List.append_assoc gap x r).symm⟩
  · rintro ⟨w, hw, rfl⟩
    obtain ⟨gap, ⟨hgap, hne⟩, x, hx, rfl⟩ := Language.mem_mul.mp hw
    obtain ⟨c, t, rfl, hc⟩ := hL x hx
    refine ⟨c :: t ++ r, ?_, (hm _ r).mpr ⟨_, hx, rfl⟩⟩
    rw [List.append_assoc, List.cons_append, dropBlanks?_gap hgap hne hc]

/-- One or the other, if the texts that the one matches are none that the other does. -/
theorem recognizes_add (hm : Recognizes m (· ∈ L)) (hm' : Recognizes m' (· ∈ L'))
    (hapart : ∀ s, (m s).isSome = true → m' s = none) :
    Recognizes (fun s => (m s).or (m' s)) (· ∈ L + L') := by
  intro s r
  rw [Option.or_eq_some_iff, hm s r, hm' s r]
  constructor
  · rintro (⟨w, hw, rfl⟩ | ⟨-, w, hw, rfl⟩)
    · exact ⟨w, .inl hw, rfl⟩
    · exact ⟨w, .inr hw, rfl⟩
  · rintro ⟨w, hw | hw, rfl⟩
    · exact .inl ⟨w, hw, rfl⟩
    · have hother : m' (w ++ r) = some r := (hm' _ r).mpr ⟨w, hw, rfl⟩
      refine .inr ⟨?_, w, hw, rfl⟩
      cases hone : m (w ++ r) with
      | none => rfl
      | some r' =>
        rw [hapart _ (by rw [hone]; rfl)] at hother
        cases hother

/-! ## Tails -/

/-- The tail holds where words of the language stand. -/
def Tells (tail : Tail) (words : Language Char) : Prop :=
  ∀ s, tail s = true ↔ ∃ w ∈ words, w <+: s

/-- There are no digits in the language. -/
def Digitless (L : Language Char) : Prop := ∀ s ∈ L, ∀ c ∈ s, isDecimalDigit c = false

/-- **Words that are certain once it is known where they start**: there are no digits in them, and
a text begins with one of them at most. -/
structure Definite (words : Language Char) : Prop where
  ne_nil : ∀ w ∈ words, w ≠ []
  digitless : Digitless words
  eq_of_append : ∀ w ∈ words, ∀ w' ∈ words, ∀ r r', w ++ r = w' ++ r' → w = w'

theorem Digitless.mul (h : Digitless L) (h' : Digitless L') : Digitless (L * L') := by
  intro s hs c hc
  obtain ⟨x, hx, y, hy, rfl⟩ := Language.mem_mul.mp hs
  exact (List.mem_append.mp hc).elim (h x hx c) (h' y hy c)

theorem Digitless.add (h : Digitless L) (h' : Digitless L') : Digitless (L + L') :=
  fun s hs => hs.elim (h s) (h' s)

theorem digitless_one : Digitless 1 := by
  rintro s rfl c hc
  cases hc

theorem digitless_blanks : Digitless blanks :=
  fun _ hs c hc => isDecimalDigit_of_isBlank (List.all_eq_true.mp hs c hc)

theorem digitless_gaps : Digitless gaps := fun s hs => digitless_blanks s hs.1

theorem digitless_spellings {word : List Char} (hword : word.all Char.isLower = true) :
    Digitless (spellings word) := by
  rintro s rfl c hc
  exact isDecimalDigit_of_foldCase (List.all_eq_true.mp hword _ (List.mem_map_of_mem hc))

theorem unspaced_spellings {c : Char} {word : List Char} (hc : c.isLower = true) :
    Unspaced (spellings (c :: word)) := by
  intro s hs
  obtain ⟨d, t, rfl, rfl, -⟩ := List.map_eq_cons_iff.mp hs
  exact ⟨d, t, rfl, isBlank_of_foldCase hc⟩

theorem digitless_titled {first : Char} {rest : List Char}
    (hletters : (first :: first.toUpper :: rest).any isDecimalDigit = false) :
    Digitless (titled first rest) := by
  simp only [List.any_cons, Bool.or_eq_false_iff, List.any_eq_false, Bool.not_eq_true] at hletters
  obtain ⟨hsmall, hcapital, hrest⟩ := hletters
  rintro s (rfl | rfl)
  · exact List.forall_mem_cons.mpr ⟨hsmall, hrest⟩
  · exact List.forall_mem_cons.mpr ⟨hcapital, hrest⟩

theorem unspaced_titled {first : Char} {rest : List Char} (hsmall : isBlank first = false)
    (hcapital : isBlank first.toUpper = false) : Unspaced (titled first rest) := by
  rintro s (rfl | rfl)
  · exact ⟨_, _, rfl, hsmall⟩
  · exact ⟨_, _, rfl, hcapital⟩

/-! ## The three patterns -/

/-- The words that a matcher recognizes stand behind blanks. -/
theorem tells_blanks_mul (hm : Recognizes m (· ∈ L)) (hL : Unspaced L) :
    Tells (fun s => (m (s.dropWhile isBlank)).isSome) (blanks * L) := by
  intro s
  rw [Option.isSome_iff_exists]
  constructor
  · rintro ⟨r, hr⟩
    obtain ⟨w, hw, rfl⟩ := (recognizes_blanks_mul hm hL s r).mp hr
    exact ⟨w, hw, r, rfl⟩
  · rintro ⟨w, hw, r, rfl⟩
    exact ⟨r, (recognizes_blanks_mul hm hL _ r).mpr ⟨w, hw, rfl⟩⟩

theorem definite_blanks_mul (hm : Recognizes m (· ∈ L)) (hL : Unspaced L)
    (hdigitless : Digitless L) : Definite (blanks * L) where
  ne_nil := by
    rintro w hw rfl
    obtain ⟨gap, -, x, hx, heq⟩ := Language.mem_mul.mp hw
    obtain ⟨c, t, rfl, -⟩ := hL x hx
    exact absurd (List.append_eq_nil_iff.mp heq).2 (List.cons_ne_nil c t)
  digitless := digitless_blanks.mul hdigitless
  eq_of_append := by
    intro w hw w' hw' r r' heq
    have hr := (recognizes_blanks_mul hm hL (w ++ r) r).mpr ⟨w, hw, rfl⟩
    rw [(recognizes_blanks_mul hm hL (w ++ r) r').mpr ⟨w', hw', heq⟩] at hr
    obtain rfl := Option.some.inj hr
    exact List.append_cancel_right heq

theorem tells_skillsTail : Tells skillsTail skillsWords :=
  tells_blanks_mul (recognizes_dropWord? _) (unspaced_spellings rfl)

theorem definite_skillsWords : Definite skillsWords :=
  definite_blanks_mul (recognizes_dropWord? _) (unspaced_spellings rfl)
    (digitless_spellings rfl)

/-- The word for skills does not start like that for specialized. -/
theorem dropWord?_skills_of_specialized (h : (dropWord? "specialized".toList s).isSome = true) :
    dropWord? "skills".toList s = none := by
  obtain ⟨r, hr⟩ := Option.isSome_iff_exists.mp h
  obtain ⟨w, hw, rfl⟩ := dropWord?_eq_some_iff.mp hr
  rw [Option.eq_none_iff_forall_ne_some]
  intro r' hr'
  obtain ⟨w', hw', heq⟩ := dropWord?_eq_some_iff.mp hr'
  have hsecond := congrArg (fun t => (t.map foldCase)[1]?) heq
  simp [hw, hw'] at hsecond

/-- The word for skills, and what may call them specialized. -/
def afterSpecializedSkills? (s : List Char) : Option (List Char) :=
  ((dropWord? "specialized".toList s).bind fun t =>
    (dropBlanks? t).bind (dropWord? "skills".toList)).or (dropWord? "skills".toList s)

theorem recognizes_afterSpecializedSkills? : Recognizes afterSpecializedSkills?
    (· ∈ (spellings "specialized".toList * gaps + 1) * spellings "skills".toList) := by
  rw [add_mul, mul_assoc, one_mul]
  refine recognizes_add (recognizes_mul (recognizes_dropWord? _)
    (recognizes_gaps_mul (recognizes_dropWord? _) (unspaced_spellings rfl)))
    (recognizes_dropWord? _) fun s hs => ?_
  refine dropWord?_skills_of_specialized ?_
  cases hdrop : dropWord? "specialized".toList s with
  | none => rw [hdrop] at hs; exact hs
  | some t => rfl

theorem specializedSkillsTail_eq (s : List Char) :
    specializedSkillsTail s = (afterSpecializedSkills? (s.dropWhile isBlank)).isSome := by
  rw [specializedSkillsTail, afterSpecializedSkills?, Option.isSome_or]
  cases dropWord? "specialized".toList (s.dropWhile isBlank) with
  | none => rfl
  | some t =>
    rw [Option.bind_some, Option.bind_some]
    cases dropBlanks? t <;> rfl

theorem unspaced_specializedSkills :
    Unspaced ((spellings "specialized".toList * gaps + 1) * spellings "skills".toList) := by
  rw [add_mul, mul_assoc, one_mul]
  rintro s (hs | hs)
  · exact (unspaced_spellings rfl).mul s hs
  · exact unspaced_spellings rfl s hs

theorem tells_specializedSkillsTail : Tells specializedSkillsTail specializedSkillsWords := by
  intro s
  rw [specializedSkillsTail_eq]
  exact tells_blanks_mul recognizes_afterSpecializedSkills? unspaced_specializedSkills s

theorem definite_specializedSkillsWords : Definite specializedSkillsWords :=
  definite_blanks_mul recognizes_afterSpecializedSkills? unspaced_specializedSkills
    ((((digitless_spellings rfl).mul digitless_gaps).add digitless_one).mul
      (digitless_spellings rfl))

/-- The words for reference files. -/
def afterReferenceFiles? (s : List Char) : Option (List Char) :=
  (dropTitled? 'r' "eference".toList s).bind fun t =>
    dropTitled? 'f' "iles".toList (t.dropWhile isBlank)

theorem recognizes_afterReferenceFiles? : Recognizes afterReferenceFiles?
    (· ∈ titled 'r' "eference".toList * (blanks * titled 'f' "iles".toList)) :=
  recognizes_mul (recognizes_dropTitled? _ _)
    (recognizes_blanks_mul (recognizes_dropTitled? _ _) (unspaced_titled rfl rfl))

theorem referencesTail_eq (s : List Char) :
    referencesTail s = (afterReferenceFiles? (s.dropWhile isBlank)).isSome := by
  rw [referencesTail, afterReferenceFiles?]
  cases dropTitled? 'r' "eference".toList (s.dropWhile isBlank) <;> rfl

theorem tells_referencesTail : Tells referencesTail referenceWords := by
  intro s
  rw [referencesTail_eq]
  exact tells_blanks_mul recognizes_afterReferenceFiles? (unspaced_titled rfl rfl).mul s

theorem definite_referenceWords : Definite referenceWords :=
  definite_blanks_mul recognizes_afterReferenceFiles? (unspaced_titled rfl rfl).mul
    ((digitless_titled rfl).mul (digitless_blanks.mul (digitless_titled rfl)))

end SkillLint.Counts
