import SkillLint.Proofs.Counts.Patterns

/-!
# Matches of a pattern

A match is a number with words of the pattern behind it.  What a search finds are the leftmost match
of the text, the leftmost one of what is behind it, and so on (`Finds`).  Every text has one outcome
(`exists_finds`, `Finds.unique`), and **the numbers that are found are the runs before the tail**
that `runsBefore` enumerates (`runsBefore_eq`).

If a pattern has all words of another one, **each match of the other is found for it too**, with the
same number at the same place (`Finds.sublist`).  It finds more matches maybe, but these are no
obstacle.  A match of the other pattern starts with a digit, so not within the words of one of them,
and not within its number either, since the whole number would make a match further to the left.
-/

namespace SkillLint.Counts

open SkillLint.Text SkillLint.Markdown
open SkillLint.Rule (IsNumber span_number)

/-- A match of a pattern: the place where it starts, its number, and the words behind it. -/
structure Match where
  place : Nat
  number : List Char
  words : List Char
  deriving Repr, DecidableEq

/-- What is matched. -/
def Match.text (m : Match) : List Char := m.number ++ m.words

/-- No match in the text starts further to the left than what comes behind `before`. -/
def Leftmost (words : Language Char) (before s : List Char) : Prop :=
  ∀ b h r, h ∈ numbers * words → s = b ++ (h ++ r) → before.length ≤ b.length

/-- The matches that a search finds in a text, each behind the one before.  The number is the place
where the text starts. -/
inductive Finds (words : Language Char) : Nat → List Char → List Match → Prop where
  | done {i : Nat} {s : List Char} (hnone : ∀ b h r, h ∈ numbers * words → s ≠ b ++ (h ++ r)) :
      Finds words i s []
  | found {i : Nat} {s before rest : List Char} {m : Match} {ms : List Match}
      (hs : s = before ++ (m.text ++ rest)) (hplace : m.place = i + before.length)
      (hnumber : IsNumber m.number) (hwords : m.words ∈ words)
      (hleftmost : Leftmost words before s)
      (h : Finds words (m.place + m.text.length) rest ms) : Finds words i s (m :: ms)

variable {words words' : Language Char} {tail : Tail} {s rest rest' before number number' w w' :
  List Char} {i : Nat} {m m' : Match} {ms ms' : List Match}

/-! ## Numbers and words -/

theorem Definite.exists_cons (hw : Definite words) (hmem : w ∈ words) :
    ∃ c t, w = c :: t ∧ isDecimalDigit c = false := by
  obtain ⟨c, t, rfl⟩ := List.exists_cons_of_ne_nil (hw.ne_nil w hmem)
  exact ⟨c, t, rfl, hw.digitless _ hmem c List.mem_cons_self⟩

/-- A number goes up to the words. -/
theorem span_match (hw : Definite words) (hnumber : IsNumber number) (hmem : w ∈ words) :
    (number ++ (w ++ rest)).span isDecimalDigit = (number, w ++ rest) := by
  obtain ⟨c, t, rfl, hc⟩ := hw.exists_cons hmem
  exact span_number hnumber hc

/-- There is one way only to start with a match. -/
theorem match_append_inj (hw : Definite words) (hnumber : IsNumber number) (hmem : w ∈ words)
    (hnumber' : IsNumber number') (hmem' : w' ∈ words)
    (heq : number ++ (w ++ rest) = number' ++ (w' ++ rest')) :
    number = number' ∧ w = w' ∧ rest = rest' := by
  have hspan := congrArg (List.span isDecimalDigit) heq
  rw [span_match hw hnumber hmem, span_match hw hnumber' hmem', Prod.mk.injEq] at hspan
  obtain ⟨rfl, htail⟩ := hspan
  obtain rfl := hw.eq_of_append w hmem w' hmem' rest rest' htail
  exact ⟨rfl, rfl, List.append_cancel_left htail⟩

theorem mem_numbers_mul (hnumber : IsNumber m.number) (hmem : m.words ∈ words) :
    m.text ∈ numbers * words := Language.append_mem_mul hnumber hmem

/-! ## The outcome of a search -/

/-- Two leftmost matches start at the same place. -/
theorem Leftmost.length_eq {before' : List Char} (hs : s = before ++ (m.text ++ rest))
    (hmatch : m.text ∈ numbers * words) (h : Leftmost words before s)
    (hs' : s = before' ++ (m'.text ++ rest')) (hmatch' : m'.text ∈ numbers * words)
    (h' : Leftmost words before' s) : before.length = before'.length :=
  Nat.le_antisymm (h _ _ _ hmatch' hs') (h' _ _ _ hmatch hs)

theorem eq_of_found (hw : Definite words) (hs : m.text ++ rest = m'.text ++ rest')
    (hplace : m.place = m'.place) (hnumber : IsNumber m.number) (hmem : m.words ∈ words)
    (hnumber' : IsNumber m'.number) (hmem' : m'.words ∈ words) : m = m' ∧ rest = rest' := by
  rw [Match.text, Match.text, List.append_assoc, List.append_assoc] at hs
  obtain ⟨hnumbers, hwords, hrest⟩ := match_append_inj hw hnumber hmem hnumber' hmem' hs
  cases m
  cases m'
  cases hplace
  cases hnumbers
  cases hwords
  exact ⟨rfl, hrest⟩

/-- **A search has one outcome.** -/
theorem Finds.unique (hw : Definite words) (h : Finds words i s ms) (h' : Finds words i s ms') :
    ms = ms' := by
  induction h generalizing ms' with
  | done hnone =>
    cases h' with
    | done => rfl
    | found hs _ hnumber hmem => exact absurd hs (hnone _ _ _ (mem_numbers_mul hnumber hmem))
  | found hs hplace hnumber hmem hleftmost _ ih =>
    cases h' with
    | done hnone => exact absurd hs (hnone _ _ _ (mem_numbers_mul hnumber hmem))
    | found hs' hplace' hnumber' hmem' hleftmost' h' =>
      have hlength := hleftmost.length_eq hs (mem_numbers_mul hnumber hmem) hs'
        (mem_numbers_mul hnumber' hmem') hleftmost'
      obtain ⟨rfl, hfrom⟩ := List.append_inj (hs.symm.trans hs') hlength
      obtain ⟨rfl, rfl⟩ := eq_of_found hw hfrom (hplace.trans hplace'.symm) hnumber hmem hnumber'
        hmem'
      rw [ih h']

/-- **Every search comes to an end.** -/
theorem exists_finds (hw : Definite words) (i : Nat) (s : List Char) :
    ∃ ms, Finds words i s ms := by
  induction hlength : s.length using Nat.strong_induction_on generalizing i s with
  | _ n ih =>
    by_cases hmatch : HasHeading (· ∈ numbers * words) s
    · obtain ⟨before, h, rest, hmem, rfl, hleftmost⟩ := exists_leftmost hmatch
      obtain ⟨number, hnumber, w, hwords, rfl⟩ := Language.mem_mul.mp hmem
      have hpositive := List.length_pos_iff.mpr (hw.ne_nil w hwords)
      have hshorter : rest.length < n := by
        simp only [List.length_append] at hlength
        omega
      let m : Match := ⟨i + before.length, number, w⟩
      obtain ⟨ms, hms⟩ := ih _ hshorter (m.place + m.text.length) rest rfl
      exact ⟨m :: ms, .found rfl rfl hnumber hwords hleftmost hms⟩
    · exact ⟨[], .done fun b h r hmem heq => hmatch ⟨b, h, r, hmem, heq⟩⟩

/-! ## Patterns with fewer words -/

/-- What starts where a number does, if only with a part of it, has a digit in it. -/
theorem exists_digit {v : List Char} (hnumber : IsNumber number) (hv : v ≠ [])
    (heq : number ++ rest = v ++ rest') : ∃ c ∈ v, isDecimalDigit c = true := by
  obtain ⟨hne, hdigits⟩ := hnumber
  obtain ⟨c, number, rfl⟩ := List.exists_cons_of_ne_nil hne
  obtain ⟨d, v, rfl⟩ := List.exists_cons_of_ne_nil hv
  obtain ⟨rfl, -⟩ := List.cons.inj heq
  exact ⟨c, List.mem_cons_self, List.all_eq_true.mp hdigits c List.mem_cons_self⟩

/-- A match that starts further to the right than another one, with words that are not for both,
starts behind its end. -/
theorem exists_between (hw : Definite words) (hle : ∀ w ∈ words', w ∈ words) {u : List Char}
    (hnumber : IsNumber m.number) (hmem : m.words ∈ words) (hother : m.words ∉ words')
    (hnumber' : IsNumber m'.number) (hmem' : m'.words ∈ words')
    (heq : m.text ++ rest = u ++ (m'.text ++ rest')) :
    ∃ v, u = m.text ++ v ∧ rest = v ++ (m'.text ++ rest') := by
  rcases List.append_eq_append_iff.mp heq with hbehind | ⟨v, htext, hfrom⟩
  · exact hbehind
  by_cases hv : v = []
  · subst hv
    exact ⟨[], by simpa using htext.symm, by simpa using hfrom.symm⟩
  rw [Match.text, List.append_assoc] at hfrom
  -- the other match does not start within the words, since they have no digits
  have hwords : ¬ v <:+ m.words := by
    intro hend
    obtain ⟨c, hc, hdigit⟩ := exists_digit hnumber' hv hfrom
    rw [hw.digitless _ hmem c (hend.subset hc)] at hdigit
    cases hdigit
  rcases List.append_eq_append_iff.mp htext with ⟨x, -, heq⟩ | ⟨number, hpart, rfl⟩
  · exact absurd ⟨x, heq.symm⟩ hwords
  -- nor within the number, since the words would be for both then
  have hrest : IsNumber number := by
    refine ⟨fun hempty => hwords (hempty ▸ List.suffix_rfl), List.all_eq_true.mpr fun c hc => ?_⟩
    exact List.all_eq_true.mp hnumber.2 c (hpart ▸ List.mem_append_right u hc)
  rw [List.append_assoc] at hfrom
  obtain ⟨-, hsame, -⟩ := match_append_inj hw hnumber' (hle _ hmem') hrest hmem hfrom
  exact absurd (hsame ▸ hmem') hother

/-- What is found behind the start of a text is found from there on. -/
theorem Leftmost.behind {t : List Char} (h : Leftmost words (t ++ before) (t ++ s)) :
    Leftmost words before s := by
  intro b g r hg heq
  have hlength := h (t ++ b) g r hg (by rw [heq, List.append_assoc])
  simpa using hlength

/-- **What is found for fewer words is found for more.** -/
theorem Finds.sublist (hw : Definite words) (hle : ∀ w ∈ words', w ∈ words) (h : Finds words i s ms)
    (h' : Finds words' i s ms') : ms'.Sublist ms := by
  have hmore : ∀ h ∈ numbers * words', h ∈ numbers * words := by
    intro h hmem
    obtain ⟨number, hnumber, w, hw, rfl⟩ := Language.mem_mul.mp hmem
    exact Language.append_mem_mul hnumber (hle w hw)
  induction h generalizing ms' with
  | done hnone =>
    cases h' with
    | done => exact List.Sublist.slnil
    | found hs _ hnumber hmem =>
      exact absurd hs (hnone _ _ _ (hmore _ (mem_numbers_mul hnumber hmem)))
  | @found i s before rest m ms hs hplace hnumber hmem hleftmost _ ih =>
    cases h' with
    | done => exact List.nil_sublist _
    | @found _ _ before' rest' m' ms' hs' hplace' hnumber' hmem' hleftmost' h' =>
      have hmatch' := mem_numbers_mul hnumber' hmem'
      -- the match of fewer words starts where the other one does, or behind it
      have hlength := hleftmost _ _ _ (hmore _ hmatch') hs'
      obtain ⟨u, rfl⟩ : before <+: before' :=
        List.prefix_of_prefix_length_le ⟨_, hs.symm⟩ ⟨_, hs'.symm⟩ hlength
      rw [hs', List.append_assoc, List.append_cancel_left_eq] at hs
      by_cases hboth : m.words ∈ words'
      · have hlength' := hleftmost' before m.text rest (mem_numbers_mul hnumber hboth)
          (by rw [hs', List.append_assoc, hs])
        obtain rfl : u = [] := by
          rw [List.length_append] at hlength'
          exact List.length_eq_zero_iff.mp (by omega)
        rw [List.append_nil] at hplace'
        obtain ⟨rfl, rfl⟩ := eq_of_found hw hs (hplace'.trans hplace.symm) hnumber' (hle _ hmem')
          hnumber hmem
        exact (ih h').cons_cons _
      · obtain ⟨v, rfl, rfl⟩ := exists_between hw hle hnumber hmem hboth hnumber' hmem' hs.symm
        refine (ih (.found rfl ?_ hnumber' hmem' ?_ h')).cons _
        · rw [hplace', hplace]
          simp only [List.length_append]
          omega
        · subst hs'
          simp only [List.append_assoc] at hleftmost'
          exact hleftmost'.behind.behind

/-! ## Runs of digits -/

theorem runsBefore_digits {digits : List Char} (hdigits : digits.all isDecimalDigit = true)
    (run s : List Char) :
    runsBefore tail run (digits ++ s) = runsBefore tail (digits.reverse ++ run) s := by
  induction digits generalizing run with
  | nil => rfl
  | cons c digits ih =>
    rw [List.all_cons, Bool.and_eq_true] at hdigits
    rw [List.cons_append, runsBefore, if_pos hdigits.1, ih hdigits.2, List.reverse_cons,
      List.append_assoc, List.singleton_append]

/-- No run stands before the words of a match. -/
theorem runsBefore_digitless (hs : ∀ c ∈ s, isDecimalDigit c = false) (t : List Char) :
    runsBefore tail [] (s ++ t) = runsBefore tail [] t := by
  induction s with
  | nil => rfl
  | cons c s ih =>
    obtain ⟨hc, hs⟩ := List.forall_mem_cons.mp hs
    rw [List.cons_append, runsBefore, if_neg (by rw [hc]; exact Bool.false_ne_true)]
    exact ih hs

/-- Before its end a run is no match. -/
theorem runsBefore_cons (htells : Tells tail words) {run : List Char} {c : Char}
    (hrun : run.all isDecimalDigit = true) (hc : isDecimalDigit c = false)
    (hnone : ∀ h r, h ∈ numbers * words → run.reverse ++ c :: s ≠ h ++ r) :
    runsBefore tail run (c :: s) = runsBefore tail [] s := by
  have hno : ¬ (!run.isEmpty && tail (c :: s)) = true := by
    intro hstart
    obtain ⟨hrun', htail⟩ := (Bool.and_eq_true _ _).mp hstart
    obtain ⟨w, hw, r, hr⟩ := (htells _).mp htail
    have hnumber : IsNumber run.reverse := ⟨by simpa using hrun', by simpa using hrun⟩
    exact hnone _ r (Language.append_mem_mul hnumber hw) (by rw [List.append_assoc, hr])
  rw [runsBefore, if_neg (by rw [hc]; exact Bool.false_ne_true), if_neg hno]

/-- Where nothing is found, there are no runs. -/
theorem runsBefore_eq_nil (htells : Tells tail words) {run : List Char}
    (hrun : run.all isDecimalDigit = true)
    (hnone : ∀ b h r, h ∈ numbers * words → run.reverse ++ s ≠ b ++ (h ++ r)) :
    runsBefore tail run s = [] := by
  induction s generalizing run with
  | nil => rfl
  | cons c s ih =>
    cases hc : isDecimalDigit c with
    | true =>
      rw [runsBefore, if_pos hc]
      refine ih (by rw [List.all_cons, hc, hrun]; rfl) fun b h r hmem => ?_
      rw [List.reverse_cons, List.append_assoc, List.singleton_append]
      exact hnone b h r hmem
    | false =>
      rw [runsBefore_cons htells hrun hc fun h r => hnone [] h r]
      refine ih rfl fun b h r hmem heq => hnone (run.reverse ++ c :: b) h r hmem ?_
      rw [List.reverse_nil, List.nil_append] at heq
      rw [heq, List.append_assoc, List.cons_append]

/-- Up to the leftmost match, there are none either. -/
theorem runsBefore_append (htells : Tells tail words) (hw : Definite words) {run : List Char}
    (hrun : run.all isDecimalDigit = true) (hnumber : IsNumber m.number) (hmem : m.words ∈ words)
    (hleftmost : Leftmost words (run.reverse ++ before)
      (run.reverse ++ (before ++ (m.text ++ rest)))) :
    runsBefore tail run (before ++ (m.text ++ rest)) = m.number :: runsBefore tail [] rest := by
  induction before generalizing run with
  | nil =>
    -- a run in front of the number would make it longer
    obtain rfl : run = [] := by
      have hlonger : IsNumber (run.reverse ++ m.number) :=
        ⟨by simp [hnumber.1], by rw [List.all_append, List.all_reverse, hrun, hnumber.2]; rfl⟩
      have hlength := hleftmost [] _ rest (Language.append_mem_mul hlonger hmem)
        (by simp [Match.text])
      simpa using hlength
    obtain ⟨c, t, hwords, hc⟩ := hw.exists_cons hmem
    have hdigitless : ∀ d ∈ t, isDecimalDigit d = false := fun d hd =>
      hw.digitless _ hmem d (hwords ▸ List.mem_cons_of_mem c hd)
    have htail : tail (c :: (t ++ rest)) = true :=
      (htells _).mpr ⟨m.words, hmem, rest, by rw [hwords, List.cons_append]⟩
    have hfound : (!(m.number.reverse).isEmpty && tail (c :: (t ++ rest))) = true := by
      rw [htail, Bool.and_true]
      simpa using hnumber.1
    rw [List.nil_append, Match.text, List.append_assoc, runsBefore_digits hnumber.2,
      List.append_nil, hwords, List.cons_append, runsBefore,
      if_neg (by rw [hc]; exact Bool.false_ne_true), if_pos hfound, List.reverse_reverse,
      runsBefore_digitless hdigitless]
  | cons c before ih =>
    rw [List.cons_append] at hleftmost ⊢
    cases hc : isDecimalDigit c with
    | true =>
      rw [runsBefore, if_pos hc]
      refine ih (by rw [List.all_cons, hc, hrun]; rfl) ?_
      simpa only [List.reverse_cons, List.append_assoc, List.singleton_append] using hleftmost
    | false =>
      have hnone : ∀ h r, h ∈ numbers * words →
          run.reverse ++ c :: (before ++ (m.text ++ rest)) ≠ h ++ r := by
        intro h r hmatch heq
        have hlength := hleftmost [] h r hmatch heq
        simp at hlength
      rw [runsBefore_cons htells hrun hc hnone]
      have hbehind : Leftmost words (run.reverse ++ [c] ++ before)
          (run.reverse ++ [c] ++ (before ++ (m.text ++ rest))) := by
        simpa only [List.append_assoc, List.singleton_append] using hleftmost
      exact ih rfl hbehind.behind

/-- **The runs before the tail are the numbers of the matches.** -/
theorem runsBefore_eq (htells : Tells tail words) (hw : Definite words) (h : Finds words i s ms) :
    runsBefore tail [] s = ms.map Match.number := by
  induction h with
  | done hnone => exact runsBefore_eq_nil htells rfl hnone
  | found hs _ hnumber hmem hleftmost _ ih =>
    rw [hs, runsBefore_append htells hw rfl hnumber hmem (hs ▸ hleftmost), List.map_cons, ih]

end SkillLint.Counts
