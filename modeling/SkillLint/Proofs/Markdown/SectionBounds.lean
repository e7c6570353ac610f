import Mathlib.Data.Nat.Find
import SkillLint.Markdown.Section
import SkillLint.Proofs.Text.Lines

/-!
# Where a section begins and ends

A body with a section is put together of four parts (`Outline`): what stands before the heading, the
heading, the content of the section, and what stands behind it.  The parts are those of the section
(`Outline.Marks`) if no heading starts further to the left, and if the content ends with the body or
at the first line feed that two number signs and a blank follow.

**Whenever there is a heading, there is such an outline, and the section is its content**
(`exists_marks`, `Marks.sectionAfter?_eq`).  Neither what comes after the break at the end of the
content matters to it, nor what comes before the heading, as long as no heading starts there
(`Marks.rewrite`): a heading begins with two number signs and has no others, so that what is behind
a heading never completes one that starts before it.
-/

namespace SkillLint.Markdown

open SkillLint.Text

variable {m : List Char → Option (List Char)} {IsHeading : List Char → Prop} {s r t : List Char}

/-- The matcher finds the headings, and what follows them. -/
def Recognizes (m : List Char → Option (List Char)) (IsHeading : List Char → Prop) : Prop :=
  ∀ s r, m s = some r ↔ ∃ h, IsHeading h ∧ s = h ++ r

/-- A heading begins with two number signs, something follows them, and there are no others. -/
def Signed (IsHeading : List Char → Prop) : Prop :=
  ∀ h, IsHeading h → ∃ words, words ≠ [] ∧ '#' ∉ words ∧ h = '#' :: '#' :: words

/-- The text goes on in a new section: a line feed, two number signs and a blank. -/
def IsBreak (s : List Char) : Prop :=
  ∃ c r, isBlank c = true ∧ s = '\n' :: '#' :: '#' :: c :: r

/-- The parts of a body with a section. -/
structure Outline where
  before : List Char
  heading : List Char
  content : List Char
  behind : List Char

namespace Outline

/-- The parts in their order. -/
def text (o : Outline) : List Char := o.before ++ (o.heading ++ (o.content ++ o.behind))

/-- **The outline marks the section** of the leftmost heading. -/
structure Marks (IsHeading : List Char → Prop) (o : Outline) : Prop where
  isHeading : IsHeading o.heading
  leftmost : ∀ b h r, IsHeading h → o.text = b ++ (h ++ r) → o.before.length ≤ b.length
  ends : o.behind = [] ∨ IsBreak o.behind
  first : ∀ u v, o.content ++ o.behind = u ++ v → IsBreak v → o.content.length ≤ u.length

end Outline

/-! ## Breaks -/

theorem startsHeading_eq_true_iff :
    startsHeading s = true ↔ ∃ c r, isBlank c = true ∧ s = '#' :: '#' :: c :: r := by
  rw [startsHeading]
  cases hdrop : dropPrefix? ['#', '#'] s with
  | none =>
    refine ⟨nofun, ?_⟩
    rintro ⟨c, r, -, rfl⟩
    cases hdrop
  | some rest =>
    obtain rfl := dropPrefix?_eq_some_iff.mp hdrop
    cases rest with
    | nil => simp
    | cons c rest => simp

theorem isBreak_cons_iff {c : Char} :
    IsBreak (c :: s) ↔ (c == '\n' && startsHeading s) = true := by
  rw [Bool.and_eq_true, beq_iff_eq, startsHeading_eq_true_iff]
  constructor
  · rintro ⟨d, r, hd, h⟩
    obtain ⟨rfl, rfl⟩ := List.cons.inj h
    exact ⟨rfl, d, r, hd, rfl⟩
  · rintro ⟨rfl, d, r, hd, rfl⟩
    exact ⟨d, r, hd, rfl⟩

/-- What follows a later break does not matter to whether the text begins with one. -/
theorem IsBreak.of_append {c : Char} (h : IsBreak (s ++ '\n' :: '#' :: '#' :: c :: r)) :
    IsBreak (s ++ '\n' :: '#' :: '#' :: c :: t) := by
  obtain ⟨d, rest, hd, heq⟩ := h
  have hassoc : ∀ u, s ++ '\n' :: '#' :: '#' :: c :: u = s ++ ['\n', '#', '#', c] ++ u := by simp
  have hprefix : ['\n', '#', '#', d] <+: s ++ ['\n', '#', '#', c] := by
    refine List.prefix_of_prefix_length_le ⟨rest, ?_⟩ (List.prefix_append _ r) (by simp)
    rw [← hassoc, heq]
    rfl
  obtain ⟨x, hx⟩ := hprefix
  refine ⟨d, x ++ t, hd, ?_⟩
  rw [hassoc, ← hx]
  rfl

/-- The text up to a break ends at the first one. -/
theorem upToHeading_append (hends : r = [] ∨ IsBreak r)
    (hfirst : ∀ u v, t ++ r = u ++ v → IsBreak v → t.length ≤ u.length) :
    upToHeading (t ++ r) = t := by
  induction t with
  | nil =>
    rw [List.nil_append]
    rcases hends with rfl | hbreak
    · rfl
    · cases r with
      | nil => rfl
      | cons c r => rw [upToHeading, if_pos (isBreak_cons_iff.mp hbreak)]
  | cons c t ih =>
    have hnone : ¬ IsBreak (c :: (t ++ r)) := fun hbreak =>
      absurd (hfirst [] _ rfl hbreak) (by simp)
    have hrest := ih fun u v huv hbreak => by
      have hlength := hfirst (c :: u) v (by rw [List.cons_append, huv, List.cons_append]) hbreak
      simpa using hlength
    rw [List.cons_append, upToHeading, if_neg (mt isBreak_cons_iff.mpr hnone), hrest]

/-- Every text goes up to a first break or to its end. -/
theorem exists_upToHeading (s : List Char) :
    ∃ t r, s = t ++ r ∧ (r = [] ∨ IsBreak r) ∧
      ∀ u v, s = u ++ v → IsBreak v → t.length ≤ u.length := by
  induction s with
  | nil => exact ⟨[], [], rfl, .inl rfl, fun _ _ _ _ => Nat.zero_le _⟩
  | cons c s ih =>
    by_cases hbreak : IsBreak (c :: s)
    · exact ⟨[], c :: s, rfl, .inr hbreak, fun _ _ _ _ => Nat.zero_le _⟩
    · obtain ⟨t, r, rfl, hends, hfirst⟩ := ih
      refine ⟨c :: t, r, rfl, hends, fun u v huv hv => ?_⟩
      cases u with
      | nil => exact absurd (huv ▸ hv) hbreak
      | cons d u =>
        obtain ⟨-, htail⟩ := List.cons.inj huv
        exact Nat.succ_le_succ (hfirst u v htail hv)

/-! ## Headings -/

/-- A heading starts somewhere in the text. -/
def HasHeading (IsHeading : List Char → Prop) (s : List Char) : Prop :=
  ∃ b h r, IsHeading h ∧ s = b ++ (h ++ r)

/-- The matcher fails where no heading starts. -/
theorem Recognizes.eq_none (hm : Recognizes m IsHeading) (h : ∀ g r, IsHeading g → s ≠ g ++ r) :
    m s = none := by
  rw [Option.eq_none_iff_forall_ne_some]
  intro r hr
  obtain ⟨g, hg, heq⟩ := (hm s r).mp hr
  exact h g r hg heq

theorem restAfter?_of_match (h : m s = some r) : restAfter? m s = some r := by
  cases s with
  | nil => exact h
  | cons c s => rw [restAfter?, h]

theorem restAfter?_eq_none (hm : Recognizes m IsHeading) (h : ¬ HasHeading IsHeading s) :
    restAfter? m s = none := by
  have hstart : m s = none := hm.eq_none fun g r hg heq => h ⟨[], g, r, hg, heq⟩
  induction s with
  | nil => exact hstart
  | cons c s ih =>
    have hrest : ¬ HasHeading IsHeading s := by
      rintro ⟨b, g, r, hg, rfl⟩
      exact h ⟨c :: b, g, r, hg, rfl⟩
    rw [restAfter?, hstart]
    exact ih hrest (hm.eq_none fun g r hg heq => hrest ⟨[], g, r, hg, heq⟩)

/-- What follows the leftmost heading is found. -/
theorem restAfter?_of_leftmost {b h : List Char} (hm : Recognizes m IsHeading)
    (hheading : IsHeading h) (hleftmost : ∀ b' g r', IsHeading g →
      b ++ (h ++ r) = b' ++ (g ++ r') → b.length ≤ b'.length) :
    restAfter? m (b ++ (h ++ r)) = some r := by
  induction b with
  | nil => exact restAfter?_of_match ((hm _ _).mpr ⟨h, hheading, rfl⟩)
  | cons c b ih =>
    have hnone : m (c :: (b ++ (h ++ r))) = none :=
      hm.eq_none fun g r' hg heq => absurd (hleftmost [] g r' hg heq) (by simp)
    rw [List.cons_append, restAfter?, hnone]
    refine ih fun b' g r' hg heq => ?_
    have hlength := hleftmost (c :: b') g r' hg (by rw [List.cons_append, heq, List.cons_append])
    simpa using hlength

/-- Of the headings in a text, one is leftmost. -/
theorem exists_leftmost (h : HasHeading IsHeading s) :
    ∃ b h r, IsHeading h ∧ s = b ++ (h ++ r) ∧ ∀ b' h' r', IsHeading h' →
      s = b' ++ (h' ++ r') → b.length ≤ b'.length := by
  classical
  have hsome : ∃ n b h r, IsHeading h ∧ s = b ++ (h ++ r) ∧ b.length = n := by
    obtain ⟨b, h, r, hheading, hs⟩ := h
    exact ⟨b.length, b, h, r, hheading, hs, rfl⟩
  obtain ⟨b, h, r, hheading, hs, hlength⟩ := Nat.find_spec hsome
  refine ⟨b, h, r, hheading, hs, fun b' h' r' hheading' hs' => ?_⟩
  rw [hlength]
  exact Nat.find_min' hsome ⟨b', h', r', hheading', hs', rfl⟩

/-! ## Outlines -/

namespace Outline

variable {o : Outline}

/-- **A text with a heading has an outline** of its section. -/
theorem exists_marks (h : HasHeading IsHeading s) :
    ∃ o : Outline, o.text = s ∧ o.Marks IsHeading := by
  obtain ⟨b, heading, rest, hheading, rfl, hleftmost⟩ := exists_leftmost h
  obtain ⟨t, r, rfl, hends, hfirst⟩ := exists_upToHeading rest
  exact ⟨⟨b, heading, t, r⟩, rfl, hheading, hleftmost, hends, hfirst⟩

/-- **The section is the content** between the heading and the break. -/
theorem Marks.sectionAfter?_eq (hm : Recognizes m IsHeading) (h : o.Marks IsHeading) :
    sectionAfter? m o.text = some o.content := by
  rw [sectionAfter?, text, restAfter?_of_leftmost hm h.isHeading h.leftmost, Option.map_some,
    upToHeading_append h.ends h.first]

/-- **Something is rewritten that lies outside of the section**: what follows the blank of the
break, or what comes before the heading, if no heading starts there then. -/
inductive Rewrites (IsHeading : List Char → Prop) : Outline → Outline → Prop where
  | behind {b h t : List Char} {c : Char} (r r' : List Char) (hc : isBlank c = true) :
      Rewrites IsHeading ⟨b, h, t, '\n' :: '#' :: '#' :: c :: r⟩
        ⟨b, h, t, '\n' :: '#' :: '#' :: c :: r'⟩
  | before {b b' h t r : List Char} (hleftmost : ∀ u g v, IsHeading g →
      text ⟨b', h, t, r⟩ = u ++ (g ++ v) → b'.length ≤ u.length) :
      Rewrites IsHeading ⟨b, h, t, r⟩ ⟨b', h, t, r⟩

theorem Rewrites.content_eq {o' : Outline} (h : Rewrites IsHeading o o') :
    o'.content = o.content := by
  cases h <;> rfl

/-- A heading that starts before another one ends before it. -/
theorem prefix_of_signed {g h w v : List Char} (hsigned : Signed IsHeading) (hg : IsHeading g)
    (hh : IsHeading h) (hw : w ≠ []) (heq : w ++ (h ++ r) = g ++ v) : g <+: w := by
  obtain ⟨words, -, -, rfl⟩ := hsigned h hh
  obtain ⟨words', hne', hwords', rfl⟩ := hsigned g hg
  cases w with
  | nil => exact absurd rfl hw
  | cons c w =>
    cases w with
    | nil =>
      -- the second number sign of the one would be the first of the other
      obtain ⟨d, words', rfl⟩ := List.exists_cons_of_ne_nil hne'
      obtain ⟨-, hsecond⟩ := List.cons.inj heq
      obtain ⟨-, hthird⟩ := List.cons.inj hsecond
      obtain ⟨rfl, -⟩ := List.cons.inj hthird
      exact absurd List.mem_cons_self hwords'
    | cons d w =>
      obtain ⟨rfl, hsecond⟩ := List.cons.inj heq
      obtain ⟨rfl, hthird⟩ := List.cons.inj hsecond
      have hprefix : words' <+: w := prefix_of_prefix_append_cons hwords' ⟨v, hthird.symm⟩
      exact List.cons_prefix_cons.mpr ⟨rfl, List.cons_prefix_cons.mpr ⟨rfl, hprefix⟩⟩

/-- **The section stays where it is** when something outside of it is rewritten. -/
theorem Marks.rewrite {o' : Outline} (hsigned : Signed IsHeading) (h : o.Marks IsHeading)
    (hrewrites : Rewrites IsHeading o o') : o'.Marks IsHeading := by
  cases hrewrites with
  | before hleftmost => exact ⟨h.isHeading, hleftmost, h.ends, h.first⟩
  | @behind b h' t c r r' hc =>
    refine ⟨h.isHeading, ?leftmost, .inr ⟨c, r', hc, rfl⟩, ?first⟩
    case leftmost =>
      intro u g v hg heq
      by_contra hshorter
      have hstart : u <+: b := List.prefix_of_prefix_length_le ⟨_, heq.symm⟩
        (List.prefix_append b _) (Nat.le_of_not_le hshorter)
      obtain ⟨w, rfl⟩ := hstart
      rw [text, List.append_assoc, List.append_cancel_left_eq] at heq
      have hw : w ≠ [] := by
        rintro rfl
        exact hshorter (by simp)
      -- the heading lies before the other one, where nothing was rewritten
      obtain ⟨x, rfl⟩ := prefix_of_signed hsigned hg h.isHeading hw heq
      have hold := h.leftmost u g (x ++ (h' ++ (t ++ '\n' :: '#' :: '#' :: c :: r))) hg
        (by simp only [text, List.append_assoc])
      exact hshorter hold
    case first =>
      intro u v heq hbreak
      by_contra hshorter
      have hstart : u <+: t := List.prefix_of_prefix_length_le ⟨v, heq.symm⟩
        (List.prefix_append t _) (Nat.le_of_not_le hshorter)
      obtain ⟨w, rfl⟩ := hstart
      rw [List.append_assoc, List.append_cancel_left_eq] at heq
      have hbreak' : IsBreak (w ++ '\n' :: '#' :: '#' :: c :: r) := (heq ▸ hbreak).of_append
      exact hshorter (h.first u _ (List.append_assoc u w _) hbreak')

end Outline

end SkillLint.Markdown
