import SkillLint.FileTree.Basic

/-!
# Entries by name

A directory has its entries under names: texts that are not empty, without a slash, and other
than the dots that stand for the directory itself and the one above (`IsName`).  A tree is
**well-formed** if all of its directories have distinct names of this kind, as those of a file
system do.

A path joined by a name leads to the entry with the name, whatever slashes the path ends with
(`find_join`), and the name is the last step of the path (`components_join`).
-/

namespace SkillLint

section Outcome

variable {ε α β : Type} {x : Except ε α} {b : β}

theorem bind_eq_ok_iff {f : α → Except ε β} : x >>= f = .ok b ↔ ∃ a, x = .ok a ∧ f a = .ok b := by
  cases x <;> simp [bind, Except.bind]

theorem map_eq_ok_iff {f : α → β} : x.map f = .ok b ↔ ∃ a, x = .ok a ∧ f a = b := by
  cases x <;> simp [Except.map]

theorem toOption_eq_some_iff {a : α} : x.toOption = some a ↔ x = .ok a := by
  cases x <;> simp [Except.toOption]

end Outcome

/-! ## Names -/

/-- A name that an entry of a directory may have. -/
def IsName (name : String) : Prop :=
  name ≠ "" ∧ name ≠ "." ∧ name ≠ ".." ∧ '/' ∉ name.toList

instance : DecidablePred IsName := fun name =>
  inferInstanceAs (Decidable (name ≠ "" ∧ name ≠ "." ∧ name ≠ ".." ∧ '/' ∉ name.toList))

/-! ## Paths -/

namespace Path

variable {name text : String} {p : Path}

theorem ofSegment?_of_isName (hname : IsName name) :
    Component.ofSegment? name = some (.normal name) := by
  rw [Component.ofSegment?, if_neg (not_or.mpr ⟨hname.1, hname.2.1⟩), if_neg hname.2.2.1]

theorem segments_of_isName (hname : IsName name) : segments ⟨name⟩ = [name] := by
  rw [segments, List.splitOn_eq_singleton hname.2.2.2]
  simp

/-- A slash ends a segment. -/
theorem segments_of_slash {t u : List Char} (htext : p.text.toList = t ++ '/' :: u) :
    p.segments = (t.splitOn '/').map String.ofList ++ (u.splitOn '/').map String.ofList := by
  rw [segments, htext, List.splitOn_append_cons_self, List.map_append]

theorem head?_ne_slash (hname : IsName name) : name.toList.head? ≠ some '/' := fun h =>
  hname.2.2.2 (List.mem_of_mem_head? h)

/-- **Joining a relative text** puts its segments in the place of the empty segment after a final
slash, or after all segments. -/
theorem exists_segments_join (p : Path) :
    ∃ init tail, p.segments = init ++ tail ∧ (tail = [] ∨ tail = [""]) ∧ (init = [] → p = ⟨""⟩) ∧
      ∀ {text : String}, text.toList.head? ≠ some '/' →
        (p.join text).segments = init ++ segments ⟨text⟩ := by
  by_cases hlast : p.text.toList.getLast?.all (· = '/')
  · have hjoin : ∀ {text : String}, text.toList.head? ≠ some '/' → p.join text = ⟨p.text ++ text⟩ :=
      fun hrelative => by rw [join, if_neg hrelative, if_pos hlast]
    cases hend : p.text.toList.getLast? with
    | none =>
      have hempty : p = ⟨""⟩ := by
        cases p
        simpa using hend
      subst hempty
      refine ⟨[], [""], rfl, .inr rfl, fun _ => rfl, fun hrelative => ?_⟩
      rw [hjoin hrelative, String.empty_append, List.nil_append]
    | some c =>
      obtain ⟨t, ht⟩ := List.getLast?_eq_some_iff.mp hend
      have hc : c = '/' := by simpa [hend] using hlast
      subst hc
      refine ⟨(t.splitOn '/').map String.ofList, [""], segments_of_slash ht, .inr rfl, ?_, ?_⟩
      · intro hnone
        exact absurd (List.map_eq_nil_iff.mp hnone) (List.splitOn_ne_nil _ _)
      · intro text hrelative
        rw [hjoin hrelative, segments_of_slash (by simp [ht] : _ = t ++ '/' :: text.toList),
          segments]
  · refine ⟨p.segments, [], (List.append_nil _).symm, .inl rfl, ?_, ?_⟩
    · intro hnone
      exact absurd (List.map_eq_nil_iff.mp hnone) (List.splitOn_ne_nil _ _)
    · intro text hrelative
      rw [join, if_neg hrelative, if_neg hlast,
        segments_of_slash (by simp : _ = p.text.toList ++ '/' :: text.toList)]
      rfl

theorem text_join_ne_of_relative (hrelative : text.toList.head? ≠ some '/') (hne : text ≠ "")
    (p : Path) : (p.join text).text ≠ "" := by
  rw [join, if_neg hrelative]
  split
  · exact fun hempty => hne (String.append_eq_empty_iff.mp hempty).2
  · exact fun hempty => hne (String.append_eq_empty_iff.mp hempty).2

theorem text_join_ne (hname : IsName name) (p : Path) : (p.join name).text ≠ "" :=
  text_join_ne_of_relative (head?_ne_slash hname) hname.1 p

theorem isAbsolute_join (hrelative : text.toList.head? ≠ some '/') (p : Path) :
    (p.join text).isAbsolute = p.isAbsolute := by
  rw [join, if_neg hrelative]
  cases htext : p.text.toList with
  | nil => simpa [isAbsolute, htext] using hrelative
  | cons c rest => split <;> simp [isAbsolute, htext]

/-- **The steps of a relative text follow those of the path** that it was joined to. -/
theorem components_join_of_relative (hrelative : text.toList.head? ≠ some '/') (p : Path)
    (hstart : p = ⟨""⟩ → (segments ⟨text⟩).head? ≠ some ".") :
    (p.join text).components =
      p.components ++ (segments ⟨text⟩).filterMap Component.ofSegment? := by
  obtain ⟨init, tail, hp, htail, hempty, hjoin⟩ := exists_segments_join p
  have hsteps : (init ++ segments ⟨text⟩).filterMap Component.ofSegment? =
      (init ++ tail).filterMap Component.ofSegment? ++
        (segments ⟨text⟩).filterMap Component.ofSegment? := by
    rcases htail with rfl | rfl <;> simp [Component.ofSegment?]
  rw [components, components, isAbsolute_join hrelative, hp, hjoin hrelative]
  split
  · rw [hsteps, List.cons_append]
  · cases init with
    | nil =>
      -- The text starts the path, where a dot would be a step of its own.
      have hdot := hstart (hempty rfl)
      generalize segments ⟨text⟩ = segments at hsteps hdot ⊢
      cases segments with
      | nil => rcases htail with rfl | rfl <;> rfl
      | cons first rest =>
        have hfirst : first ≠ "." := by simpa using hdot
        rcases htail with rfl | rfl <;> simp [hfirst, Component.ofSegment?]
    | cons first rest =>
      by_cases hfirst : first = "."
      · subst hfirst
        simpa [Component.ofSegment?] using hsteps
      · simpa [hfirst] using hsteps

/-- **The name is the last step** of a path that it was joined to. -/
theorem components_join (hname : IsName name) (p : Path) :
    (p.join name).components = p.components ++ [.normal name] := by
  have hsegments := segments_of_isName hname
  rw [components_join_of_relative (head?_ne_slash hname) p fun _ => by simp [hsegments, hname.2.1],
    hsegments, List.filterMap_cons_some (ofSegment?_of_isName hname), List.filterMap_nil]

/-- A path that a name was joined to has the name. -/
@[simp] theorem fileName?_join (hname : IsName name) (p : Path) :
    (p.join name).fileName? = some name := by
  rw [fileName?, components_join hname, List.getLast?_concat]

end Path

/-! ## Trees -/

namespace FileTree

/-- Every directory in the node has distinct entries, each under a name. -/
inductive Node.WellFormed : Node → Prop where
  | file (content : ByteArray) : WellFormed (.file content)
  | dir {entries : List (String × Node)} (hnodup : (entries.map Prod.fst).Nodup)
      (hnames : ∀ e ∈ entries, IsName e.1) (hnodes : ∀ e ∈ entries, WellFormed e.2) :
      WellFormed (.dir entries)

/-- Every directory of the tree has distinct entries, each under a name. -/
def WellFormed (tree : FileTree) : Prop := tree.top.WellFormed

variable {tree : FileTree} {entries : List (String × Node)} {e : String × Node}

theorem Node.WellFormed.nodup (h : (Node.dir entries).WellFormed) :
    (entries.map Prod.fst).Nodup := by
  cases h with
  | dir hnodup _ _ => exact hnodup

theorem Node.WellFormed.isName (h : (Node.dir entries).WellFormed) (he : e ∈ entries) :
    IsName e.1 := by
  cases h with
  | dir _ hnames _ => exact hnames e he

theorem Node.WellFormed.node_of_mem (h : (Node.dir entries).WellFormed) (he : e ∈ entries) :
    e.2.WellFormed := by
  cases h with
  | dir _ _ hnodes => exact hnodes e he

theorem mem_of_lookup_eq_some {name : String} {node : Node}
    (h : entries.lookup name = some node) : (name, node) ∈ entries := by
  obtain ⟨before, after, heq, -⟩ := List.lookup_eq_some_iff.mp h
  rw [heq]
  exact List.mem_append_right _ List.mem_cons_self

/-- There is an entry with each of the names. -/
theorem isSome_lookup_iff {name : String} :
    (entries.lookup name).isSome = true ↔ name ∈ entries.map Prod.fst := by
  rw [List.lookup_isSome_iff, List.mem_map]
  exact exists_congr fun e => and_congr_right' (beq_iff_eq.trans eq_comm)

/-- Under distinct names the first entry with a name is the only one. -/
theorem lookup_of_mem (hnodup : (entries.map Prod.fst).Nodup) (he : e ∈ entries) :
    entries.lookup e.1 = some e.2 := by
  obtain ⟨before, after, rfl⟩ := List.append_of_mem he
  refine List.lookup_eq_some_iff.mpr ⟨before, after, rfl, fun other hother => ?_⟩
  rw [List.map_append, List.map_cons, List.nodup_append] at hnodup
  exact bne_iff_ne.mpr
    (hnodup.2.2 other.1 (List.mem_map_of_mem hother) e.1 List.mem_cons_self).symm

namespace Place

variable {here there : Place}

/-- The node at the place and the directories above it are well-formed. -/
def WellFormed (here : Place) : Prop :=
  here.node.WellFormed ∧ ∀ node ∈ here.above, node.WellFormed

/-- **A step stays inside the tree**: what is well-formed before it is so after. -/
theorem WellFormed.step {segment : String} (h : here.WellFormed)
    (hstep : here.step segment = .ok there) : there.WellFormed := by
  obtain ⟨node, above⟩ := here
  cases node with
  | file content => cases hstep
  | dir entries =>
    simp only [Place.step] at hstep
    split at hstep
    · cases hstep
      exact h
    · split at hstep
      · cases above with
        | nil =>
          cases hstep
          exact h
        | cons parent above =>
          cases hstep
          exact ⟨h.2 parent List.mem_cons_self,
            fun node hnode => h.2 node (List.mem_cons_of_mem _ hnode)⟩
      · cases hentry : entries.lookup segment with
        | none => simp [hentry] at hstep
        | some node =>
          simp only [hentry] at hstep
          cases hstep
          refine ⟨h.1.node_of_mem (mem_of_lookup_eq_some hentry), fun node hnode => ?_⟩
          rcases List.mem_cons.mp hnode with rfl | hnode
          · exact h.1
          · exact h.2 node hnode

theorem WellFormed.walk : ∀ (segments : List String) {here there : Place}, here.WellFormed →
    segments.foldlM Place.step here = .ok there → there.WellFormed
  | [], _, _, h, hwalk => by
      cases hwalk
      exact h
  | segment :: rest, here, there, h, hwalk => by
      rw [List.foldlM_cons, bind_eq_ok_iff] at hwalk
      obtain ⟨next, hstep, hrest⟩ := hwalk
      exact WellFormed.walk rest (h.step hstep) hrest

/-- An empty segment leads nowhere else. -/
theorem eq_of_step_empty (hstep : here.step "" = .ok there) : here = there := by
  obtain ⟨node, above⟩ := here
  cases node with
  | file content => cases hstep
  | dir entries => exact Except.ok.inj hstep

/-- A name leads to its entry. -/
theorem step_of_isName {name : String} {above : List Node} (hname : IsName name) :
    Place.step ⟨.dir entries, above⟩ name =
      match entries.lookup name with
      | none => .error .notFound
      | some node => .ok ⟨node, .dir entries :: above⟩ :=
  (if_neg (not_or.mpr ⟨hname.1, hname.2.1⟩)).trans (if_neg hname.2.2.1)

end Place

theorem WellFormed.topPlace (h : tree.WellFormed) : tree.topPlace.WellFormed :=
  ⟨h, fun _ hnode => absurd hnode List.not_mem_nil⟩

theorem WellFormed.place {p : Path} {here : Place} (h : tree.WellFormed)
    (hplace : tree.place p = .ok here) : here.WellFormed := by
  rw [FileTree.place] at hplace
  split at hplace
  · cases hplace
  · split at hplace <;> exact h.topPlace.walk _ hplace

/-- What a path leads to in a well-formed tree is well-formed. -/
theorem WellFormed.find {p : Path} {node : Node} (h : tree.WellFormed)
    (hfind : tree.find p = .ok node) : node.WellFormed := by
  obtain ⟨here, hplace, rfl⟩ := map_eq_ok_iff.mp hfind
  exact (h.place hplace).1

/-- A walk along the segments of a path goes on by the name that was joined, if an empty segment
leads nowhere else. -/
theorem foldlM_segments_join {σ : Type} {step : σ → String → Except ReadError σ}
    (hstay : ∀ {s t}, step s "" = .ok t → s = t) {name : String} {p : Path} {start here : σ}
    (hname : IsName name) (before : List String)
    (hwalk : (before ++ p.segments).foldlM step start = .ok here) :
    (before ++ (p.join name).segments).foldlM step start = step here name := by
  obtain ⟨init, tail, hp, htail, -, hjoin⟩ := Path.exists_segments_join p
  have hinit : (before ++ init).foldlM step start = .ok here := by
    rw [hp, ← List.append_assoc, List.foldlM_append, bind_eq_ok_iff] at hwalk
    obtain ⟨middle, hmiddle, hlast⟩ := hwalk
    rcases htail with rfl | rfl
    · rw [hmiddle]
      exact hlast
    · have hstay : middle = here := hstay (by simpa using hlast)
      rw [hmiddle, hstay]
  rw [hjoin (Path.head?_ne_slash hname), Path.segments_of_isName hname, ← List.append_assoc,
    List.foldlM_append, hinit]
  exact bind_pure (step here name)

/-- The path extended by a name leads one step further. -/
theorem place_join {name : String} {p : Path} {here : Place} (hname : IsName name)
    (hplace : tree.place p = .ok here) : tree.place (p.join name) = here.step name := by
  rw [FileTree.place] at hplace
  rw [FileTree.place, if_neg (Path.text_join_ne hname p),
    Path.isAbsolute_join (Path.head?_ne_slash hname)]
  split at hplace
  · cases hplace
  · split at hplace
    · rename_i habsolute
      rw [if_pos habsolute]
      exact foldlM_segments_join Place.eq_of_step_empty hname [] hplace
    · rename_i habsolute
      rw [if_neg habsolute]
      exact foldlM_segments_join Place.eq_of_step_empty hname tree.workingDir hplace

/-- **An entry is found by its name**: the path of a directory extended by the name of an entry
leads to the entry. -/
theorem find_join (htree : tree.WellFormed) {p : Path} (hfind : tree.find p = .ok (.dir entries))
    (he : e ∈ entries) : tree.find (p.join e.1) = .ok e.2 := by
  have hdir := htree.find hfind
  have hname := hdir.isName he
  obtain ⟨⟨node, above⟩, hplace, rfl⟩ := map_eq_ok_iff.mp hfind
  rw [FileTree.find, place_join hname hplace, Place.step_of_isName hname,
    lookup_of_mem hdir.nodup he]
  rfl

/-- The path of an entry leads to a directory if the entry is one. -/
theorem isDir_join (htree : tree.WellFormed) {p : Path}
    (hfind : tree.find p = .ok (.dir entries)) (he : e ∈ entries) :
    tree.isDir (p.join e.1) = e.2.isDir := by
  rw [isDir, find_join htree hfind he]

/-- A path that leads to a directory leads to its entries. -/
theorem isDir_eq_true_iff {p : Path} :
    tree.isDir p = true ↔ ∃ entries, tree.find p = .ok (.dir entries) := by
  rw [isDir]
  split
  · rename_i node hfind
    cases node <;> simp [hfind, Node.isDir]
  · rename_i reason hfind
    simp [hfind]

theorem pathExists_of_isDir {p : Path} (hdir : tree.isDir p = true) : tree.pathExists p = true := by
  obtain ⟨entries, hfind⟩ := isDir_eq_true_iff.mp hdir
  rw [pathExists, hfind]
  rfl

/-- **A name leads to a directory** if the entry of that name is one. -/
theorem isDir_join_iff (htree : tree.WellFormed) {p : Path} {name : String} (hname : IsName name)
    (hfind : tree.find p = .ok (.dir entries)) :
    tree.isDir (p.join name) = true ↔ ∃ children, (name, .dir children) ∈ entries := by
  constructor
  · intro hdir
    obtain ⟨children, hchild⟩ := isDir_eq_true_iff.mp hdir
    obtain ⟨⟨node, above⟩, hplace, rfl⟩ := map_eq_ok_iff.mp hfind
    rw [find, place_join hname hplace, Place.step_of_isName hname] at hchild
    cases hentry : entries.lookup name with
    | none => simp [hentry, Except.map] at hchild
    | some node =>
      obtain rfl : node = .dir children := by simpa [hentry, Except.map] using hchild
      exact ⟨children, mem_of_lookup_eq_some hentry⟩
  · rintro ⟨children, hentry⟩
    have hchild := isDir_join htree hfind hentry
    exact hchild

/-- What is read is there. -/
theorem pathExists_of_readText {p : Path} {text : String} (hread : tree.readText p = .ok text) :
    tree.pathExists p = true := by
  obtain ⟨node, hfind, -⟩ := bind_eq_ok_iff.mp hread
  rw [pathExists, hfind]
  rfl

/-- The bytes of a text are read as the text. -/
theorem readText_of_find {p : Path} {text : String}
    (hfind : tree.find p = .ok (.file text.toUTF8)) : tree.readText p = .ok text := by
  have htext : String.fromUTF8? text.toUTF8 = some text := dif_pos text.isValidUTF8
  refine bind_eq_ok_iff.mpr ⟨_, hfind, ?_⟩
  simp only [htext]

/-- Only a directory can be listed. -/
theorem isDir_of_list {p : Path} {paths : List Path} (hlist : tree.list p = .ok paths) :
    tree.isDir p = true := by
  obtain ⟨node, hfind, hnode⟩ := bind_eq_ok_iff.mp hlist
  cases node with
  | file content => cases hnode
  | dir entries => exact isDir_eq_true_iff.mpr ⟨entries, hfind⟩

/-- A directory lists the paths of its entries. -/
theorem list_of_find {p : Path} (hfind : tree.find p = .ok (.dir entries)) :
    tree.list p = .ok ((entries.map Prod.fst).map p.join) := by
  rw [list, hfind, List.map_map]
  rfl

end FileTree

end SkillLint
