import Mathlib.Data.List.TakeDrop
import Mathlib.Data.List.TakeWhile
import SkillLint.Proofs.FileTree.Names

/-!
# Spelling steps

A path is spelled in many ways, and one of them is plain: its steps with slashes between them
(`spelling`).  Spelled steps are read back as they were (`components_spelling`), and if they are
no more than names and double dots, they may be read from any path that they are joined to
(`components_join_spelling`).
-/

namespace SkillLint.Path

variable {text segment : String} {p : Path} {step : Component} {steps : List Component}

/-! ## Steps -/

/-- A step that may stand anywhere in a path: two dots or a name. -/
inductive Component.Inner : Component → Prop where
  | parent : Inner .parent
  | normal {name : String} (hname : IsName name) : Inner (.normal name)

/-- Steps as paths have them: only the first may be the top or a dot. -/
inductive Steps : List Component → Prop where
  | relative {steps : List Component} (hinner : ∀ step ∈ steps, step.Inner) : Steps steps
  | absolute {steps : List Component} (hinner : ∀ step ∈ steps, step.Inner) :
      Steps (.root :: steps)
  | current {steps : List Component} (hinner : ∀ step ∈ steps, step.Inner) :
      Steps (.current :: steps)

theorem Component.Inner.ofSegment?_text (h : step.Inner) :
    Component.ofSegment? step.text = some step := by
  cases h with
  | parent => decide
  | normal hname => exact ofSegment?_of_isName hname

theorem eq_of_ofSegment?_eq_none (h : Component.ofSegment? segment = none) :
    segment = "" ∨ segment = "." := by
  rw [Component.ofSegment?] at h
  split at h
  · assumption
  · split at h <;> cases h

theorem Component.Inner.slash_notMem (h : step.Inner) : '/' ∉ step.text.toList := by
  cases h with
  | parent => decide
  | normal hname => exact hname.2.2.2

theorem Component.Inner.text_ne_empty (h : step.Inner) : step.text ≠ "" := by
  cases h with
  | parent => decide
  | normal hname => exact hname.1

theorem Component.Inner.text_ne_dot (h : step.Inner) : step.text ≠ "." := by
  cases h with
  | parent => decide
  | normal hname => exact hname.2.1

theorem inner_of_ofSegment? (hslash : '/' ∉ segment.toList)
    (h : Component.ofSegment? segment = some step) : step.Inner := by
  rw [Component.ofSegment?] at h
  split at h
  · cases h
  · rename_i hname
    split at h
    · cases h
      exact .parent
    · rename_i hparent
      cases h
      exact .normal ⟨fun hempty => hname (.inl hempty), fun hdot => hname (.inr hdot), hparent,
        hslash⟩

/-- No piece of a split text has the separator in it. -/
theorem notMem_of_mem_splitOn {separator : Char} : ∀ (n : Nat) {text piece : List Char},
    text.length ≤ n → piece ∈ text.splitOn separator → separator ∉ piece := by
  intro n
  induction n with
  | zero =>
    intro text piece hlength hpiece
    obtain rfl := List.eq_nil_of_length_eq_zero (Nat.le_zero.mp hlength)
    obtain rfl := List.mem_singleton.mp hpiece
    exact List.not_mem_nil
  | succ n ih =>
    intro text piece hlength hpiece
    by_cases hmem : separator ∈ text
    · obtain ⟨before, after, rfl, hbefore⟩ := List.eq_append_cons_of_mem hmem
      rw [List.splitOn_append_cons_self, List.splitOn_eq_singleton hbefore, List.singleton_append,
        List.mem_cons] at hpiece
      rcases hpiece with rfl | hpiece
      · exact hbefore
      · simp only [List.length_append, List.length_cons] at hlength
        exact ih (by omega) hpiece
    · rw [List.splitOn_eq_singleton hmem, List.mem_singleton] at hpiece
      exact hpiece ▸ hmem

theorem slash_notMem_of_mem_segments (h : segment ∈ p.segments) : '/' ∉ segment.toList := by
  obtain ⟨piece, hpiece, rfl⟩ := List.mem_map.mp h
  rw [String.toList_ofList]
  exact notMem_of_mem_splitOn _ (Nat.le_refl _) hpiece

theorem inner_of_mem_filterMap {segments : List String}
    (hslash : ∀ segment ∈ segments, '/' ∉ segment.toList) :
    ∀ step ∈ segments.filterMap Component.ofSegment?, step.Inner := by
  intro step hstep
  obtain ⟨segment, hsegment, hstep⟩ := List.mem_filterMap.mp hstep
  exact inner_of_ofSegment? (hslash segment hsegment) hstep

/-- The components of a path are steps as paths have them. -/
theorem steps_components (p : Path) : Steps p.components := by
  have hslash : ∀ segment ∈ p.segments, '/' ∉ segment.toList := fun _ =>
    slash_notMem_of_mem_segments
  rw [components]
  split
  · exact .absolute (inner_of_mem_filterMap hslash)
  · split
    · rename_i rest hsegments
      refine .current (inner_of_mem_filterMap fun segment hsegment => hslash segment ?_)
      exact hsegments ▸ List.mem_cons_of_mem _ hsegment
    · exact .relative (inner_of_mem_filterMap hslash)

/-- What follows the first of steps may stand anywhere. -/
theorem Steps.inner_of_append {before : List Component} (h : Steps (before ++ steps))
    (hbefore : before ≠ []) : ∀ step ∈ steps, step.Inner := by
  obtain ⟨first, between, rfl⟩ := List.exists_cons_of_ne_nil hbefore
  rw [List.cons_append] at h
  cases h with
  | relative hinner =>
    exact fun step hstep =>
      hinner step (List.mem_cons_of_mem _ (List.mem_append_right _ hstep))
  | absolute hinner => exact fun step hstep => hinner step (List.mem_append_right _ hstep)
  | current hinner => exact fun step hstep => hinner step (List.mem_append_right _ hstep)

/-- Only the empty path has no steps. -/
theorem eq_of_components_eq_nil (h : p.components = []) : p = ⟨""⟩ := by
  rw [components] at h
  split at h
  · cases h
  · rename_i hrelative
    split at h
    · cases h
    · rename_i hdot
      have htext : ['/'].intercalate (p.text.toList.splitOn '/') = p.text.toList :=
        List.intercalate_splitOn '/'
      cases hpieces : p.text.toList.splitOn '/' with
      | nil => exact absurd hpieces (List.splitOn_ne_nil _ _)
      | cons piece pieces =>
        have hsegments : p.segments = String.ofList piece :: pieces.map String.ofList := by
          rw [segments, hpieces, List.map_cons]
        rw [hsegments] at h hdot
        have hfirst := List.filterMap_eq_nil_iff.mp h _ List.mem_cons_self
        -- If the first segment is empty, the path is empty too, or it starts with a slash.
        rcases eq_of_ofSegment?_eq_none hfirst with hempty | hsingle
        · obtain rfl : piece = [] := by simpa using hempty
          rw [hpieces] at htext
          cases pieces with
          | nil =>
            cases p
            simpa using htext.symm
          | cons next pieces =>
            rw [isAbsolute, ← htext] at hrelative
            exact absurd rfl hrelative
        · exact absurd (congrArg (· :: _) hsingle) (hdot _)

/-- A path that a text was joined to has the steps of the path and more, or it is absolute. -/
theorem prefix_or_absolute_join (p : Path) (text : String) :
    p.components <+: (p.join text).components ∨
      (p.join text).components.head? = some .root := by
  by_cases habsolute : text.toList.head? = some '/'
  · refine .inr ?_
    rw [join, if_pos habsolute, components, if_pos (by rw [isAbsolute, habsolute]; rfl)]
    rfl
  · refine .inl ?_
    by_cases hempty : p = ⟨""⟩
    · rw [hempty]
      exact List.nil_prefix
    · rw [components_join_of_relative habsolute p fun h => absurd h hempty]
      exact List.prefix_append _ _

/-! ## Spelling -/

/-- The steps, written with slashes between them. -/
def spelling (steps : List Component) : String := "/".intercalate (steps.map Component.text)

/-- Steps without slashes are the segments of their spelling. -/
theorem segments_spelling (hne : steps ≠ []) (hslash : ∀ step ∈ steps, '/' ∉ step.text.toList) :
    segments ⟨spelling steps⟩ = steps.map Component.text := by
  have hsplit : (spelling steps).toList.splitOn '/' =
      (steps.map Component.text).map String.toList := by
    rw [spelling, String.toList_intercalate]
    refine List.splitOn_intercalate '/' (fun piece hpiece => ?_) (by simpa using hne)
    rw [List.map_map] at hpiece
    obtain ⟨step, hstep, rfl⟩ := List.mem_map.mp hpiece
    exact hslash step hstep
  rw [segments, hsplit, List.map_map]
  simp

theorem filterMap_text (hinner : ∀ step ∈ steps, step.Inner) :
    (steps.map Component.text).filterMap Component.ofSegment? = steps := by
  induction steps with
  | nil => rfl
  | cons step rest ih =>
    obtain ⟨hstep, hrest⟩ := List.forall_mem_cons.mp hinner
    rw [List.map_cons, List.filterMap_cons_some hstep.ofSegment?_text, ih hrest]

theorem filterMap_segments_spelling (hinner : ∀ step ∈ steps, step.Inner) :
    (segments ⟨spelling steps⟩).filterMap Component.ofSegment? = steps := by
  cases steps with
  | nil => decide
  | cons step rest =>
    rw [segments_spelling (List.cons_ne_nil step rest)
      fun step hstep => (hinner step hstep).slash_notMem, filterMap_text hinner]

/-- A text whose first segment is not empty does not start with a slash. -/
theorem head?_ne_slash_of_segments (h : (segments ⟨text⟩).head? ≠ some "") :
    text.toList.head? ≠ some '/' := by
  intro hslash
  obtain ⟨rest, hrest⟩ := List.head?_eq_some_iff.mp hslash
  rw [segments_of_slash (by simp [hrest] : _ = [] ++ '/' :: rest)] at h
  simp at h

/-- **Spelled names and double dots are read from the path** that they are joined to. -/
theorem components_join_spelling (hinner : ∀ step ∈ steps, step.Inner) (p : Path) :
    (p.join (spelling steps)).components = p.components ++ steps := by
  cases steps with
  | nil =>
    rw [components_join_of_relative (by decide) p fun _ => by decide]
    rfl
  | cons step rest =>
    obtain ⟨hstep, -⟩ := List.forall_mem_cons.mp hinner
    have hsegments := segments_spelling (List.cons_ne_nil step rest)
      fun step hstep => (hinner step hstep).slash_notMem
    have hrelative : (spelling (step :: rest)).toList.head? ≠ some '/' := by
      refine head?_ne_slash_of_segments ?_
      rw [hsegments]
      simpa using hstep.text_ne_empty
    rw [components_join_of_relative hrelative p fun _ => ?dot, hsegments, filterMap_text hinner]
    rw [hsegments]
    simpa using hstep.text_ne_dot

theorem join_empty (text : String) : join ⟨""⟩ text = ⟨text⟩ := by
  rw [join]
  split <;> simp

/-- A slash in front ends an empty segment. -/
theorem segments_slash (text : String) : segments ⟨"/" ++ text⟩ = "" :: segments ⟨text⟩ := by
  have htext : (⟨"/" ++ text⟩ : Path).text.toList = [] ++ '/' :: text.toList := by simp
  rw [segments_of_slash htext]
  rfl

/-- A slash in front makes a path absolute. -/
theorem components_slash (text : String) :
    components ⟨"/" ++ text⟩ = .root :: (segments ⟨text⟩).filterMap Component.ofSegment? := by
  have habsolute : (⟨"/" ++ text⟩ : Path).isAbsolute = true := by simp [isAbsolute]
  rw [components, if_pos habsolute, segments_slash]
  rfl

/-- **Spelled steps are read back.** -/
theorem components_spelling (h : Steps steps) : components ⟨spelling steps⟩ = steps := by
  cases h with
  | relative hinner =>
    have hjoin := components_join_spelling hinner ⟨""⟩
    rwa [join_empty] at hjoin
  | @absolute rest hinner =>
    cases rest with
    | nil => decide
    | cons step rest =>
      have hspelling : spelling (.root :: step :: rest) =
          "/" ++ ("/" ++ spelling (step :: rest)) := by
        rw [spelling, List.map_cons, List.map_cons, String.intercalate_cons_cons,
          String.append_assoc]
        rfl
      rw [hspelling, components_slash, segments_slash,
        List.filterMap_cons_none (by decide : Component.ofSegment? "" = none),
        filterMap_segments_spelling hinner]
  | @current rest hinner =>
    have hsegments : segments ⟨spelling (.current :: rest)⟩ = "." :: rest.map Component.text :=
      segments_spelling (List.cons_ne_nil _ _) (List.forall_mem_cons.mpr
        ⟨by decide, fun step hstep => (hinner step hstep).slash_notMem⟩)
    have hrelative : ¬ (⟨spelling (.current :: rest)⟩ : Path).isAbsolute = true := by
      rw [isAbsolute, beq_iff_eq]
      exact head?_ne_slash_of_segments (by rw [hsegments]; simp)
    rw [components, if_neg hrelative, hsegments]
    exact congrArg _ (filterMap_text hinner)

/-- **Steps that are put together to a path are its components.** -/
theorem components_ofComponents (h : Steps steps) : (ofComponents steps).components = steps := by
  cases h with
  | @relative steps hinner =>
    have hspelling : ofComponents steps = ⟨spelling steps⟩ := by
      cases steps with
      | nil => rfl
      | cons step rest => cases hinner step List.mem_cons_self <;> rfl
    rw [hspelling, components_spelling (.relative hinner)]
  | @absolute rest hinner =>
    exact (components_slash _).trans (congrArg _ (filterMap_segments_spelling hinner))
  | current hinner => exact components_spelling (.current hinner)

/-! ## Parts of paths -/

/-- What stands behind the last dot of a name is its extension, unless nothing is in front. -/
theorem extensionOf?_append {extension : String} (hdot : '.' ∉ extension.toList) (stem : String) :
    extensionOf? (stem ++ "." ++ extension) = if stem = "" then none else some extension := by
  have hreverse : (stem ++ "." ++ extension).toList.reverse =
      extension.toList.reverse ++ '.' :: stem.toList.reverse := by simp
  have hbehind : ∀ c ∈ extension.toList.reverse, decide (c ≠ '.') = true := by
    intro c hc
    rw [decide_eq_true_iff]
    rintro rfl
    exact hdot (List.mem_reverse.mp hc)
  rw [extensionOf?, List.span_eq_takeWhile_dropWhile, hreverse,
    List.takeWhile_append_of_pos hbehind, List.dropWhile_append_of_pos hbehind]
  simp

/-- **An extension stands behind the last dot** of a name, and that is not the first character. -/
theorem extensionOf?_eq_some_iff {name extension : String} :
    extensionOf? name = some extension ↔
      '.' ∉ extension.toList ∧ ∃ stem, stem ≠ "" ∧ name = stem ++ "." ++ extension := by
  constructor
  · intro h
    rw [extensionOf?, List.span_eq_takeWhile_dropWhile] at h
    have hsplit : name.toList.reverse.takeWhile (· ≠ '.') ++
        name.toList.reverse.dropWhile (· ≠ '.') = name.toList.reverse := List.takeWhile_append_dropWhile
    have hafter : '.' ∉ name.toList.reverse.takeWhile (· ≠ '.') := by
      intro hdot
      have hother := List.mem_takeWhile_imp hdot
      simp at hother
    generalize name.toList.reverse.takeWhile (· ≠ '.') = after at h hsplit hafter
    split at h
    · rename_i after' before heq
      obtain ⟨rfl, hbefore⟩ := Prod.mk.inj heq
      split at h
      · cases h
      · rename_i hne
        obtain rfl := Option.some.inj h
        refine ⟨by simpa using hafter, String.ofList before.reverse, by simpa using hne, ?_⟩
        rw [hbefore] at hsplit
        rw [← String.toList_inj, ← List.reverse_inj, ← hsplit]
        simp
    · cases h
  · rintro ⟨hdot, stem, hne, rfl⟩
    rw [extensionOf?_append hdot, if_neg hne]

/-- The parent of an entry has the steps of the directory. -/
theorem parent?_join_eq {name : String} (hname : IsName name) (p : Path) :
    (p.join name).parent? = some (ofComponents p.components) := by
  rw [parent?, components_join hname, List.getLast?_concat, List.dropLast_concat]

/-- An entry is named after the last step, and its parent after the one before. -/
theorem parent?_join {name : String} (hname : IsName name) (p : Path) :
    (p.join name).parent?.bind fileName? = p.fileName? := by
  rw [parent?_join_eq hname, Option.bind_some, fileName?, components_ofComponents (steps_components p), fileName?]

end SkillLint.Path
