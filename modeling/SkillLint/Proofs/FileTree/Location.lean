import SkillLint.Proofs.FileTree.Names

/-!
# Locations

A path may be spelled in many ways, and steps up and down on its way.  The **location** that it
leads to (`locate`) is the list of names from the top of the tree down to it.  A location says
which node a path leads to (`find_cases`), so two paths lead to one place exactly if they have the
same location; and whether steps can be taken depends on which locations are there, and not on
what the files hold.
-/

namespace SkillLint.FileTree

/-! ## Nodes at the end of names -/

/-- The node at the end of names. -/
def Node.at? : Node → List String → Option Node
  | node, [] => some node
  | .file _, _ :: _ => none
  | .dir entries, name :: rest =>
    match entries.lookup name with
    | none => none
    | some node => node.at? rest

@[simp] theorem Node.at?_nil (node : Node) : node.at? [] = some node := by
  cases node <;> rfl

@[simp] theorem Node.at?_file_cons (content : ByteArray) (name : String) (rest : List String) :
    (Node.file content).at? (name :: rest) = none := rfl

theorem Node.at?_dir_cons (entries : List (String × Node)) (name : String) (rest : List String) :
    (Node.dir entries).at? (name :: rest) = (entries.lookup name).bind (·.at? rest) := by
  rw [Node.at?]
  cases entries.lookup name <;> rfl

/-- Names lead on from what the first of them lead to. -/
theorem Node.at?_append (names rest : List String) : ∀ node : Node,
    node.at? (names ++ rest) = (node.at? names).bind (·.at? rest) := by
  induction names with
  | nil => intro node; simp
  | cons name names ih =>
    intro node
    cases node with
    | file content => rfl
    | dir entries =>
      rw [List.cons_append, at?_dir_cons, at?_dir_cons, Option.bind_assoc]
      exact Option.bind_congr fun node _ => ih node

/-- One name further is the entry with the name. -/
theorem Node.at?_concat {node : Node} {names : List String} {entries : List (String × Node)}
    (h : node.at? names = some (.dir entries)) (name : String) :
    node.at? (names ++ [name]) = entries.lookup name := by
  rw [at?_append, h, Option.bind_some, at?_dir_cons]
  cases entries.lookup name <;> simp

theorem Node.WellFormed.at? {node : Node} (h : node.WellFormed) : ∀ {names : List String}
    {found : Node}, node.at? names = some found →
      found.WellFormed ∧ ∀ name ∈ names, IsName name := by
  induction h with
  | file content =>
    rintro (_ | ⟨name, rest⟩) found hfound
    · obtain rfl := Option.some.inj hfound
      exact ⟨.file content, nofun⟩
    · cases hfound
  | @dir entries hnodup hnames hnodes ih =>
    rintro (_ | ⟨name, rest⟩) found hfound
    · obtain rfl := Option.some.inj hfound
      exact ⟨.dir hnodup hnames hnodes, nofun⟩
    · rw [Node.at?_dir_cons, Option.bind_eq_some_iff] at hfound
      obtain ⟨node, hlookup, hrest⟩ := hfound
      have hentry := mem_of_lookup_eq_some hlookup
      obtain ⟨hwell, hall⟩ := ih (name, node) hentry hrest
      exact ⟨hwell, List.forall_mem_cons.mpr ⟨hnames _ hentry, hall⟩⟩

/-! ## Locations of paths -/

/-- The location one segment further from a location below the node. -/
def Node.stepFrom (top : Node) (names : List String) (segment : String) :
    Except ReadError (List String) :=
  match top.at? names with
  | none => .error .notFound
  | some (.file _) => .error .notADirectory
  | some (.dir _) =>
    if segment = "" ∨ segment = "." then .ok names
    else if segment = ".." then .ok names.dropLast
    else if (top.at? (names ++ [segment])).isSome then .ok (names ++ [segment])
    else .error .notFound

/-- The location that a path leads to. -/
def locate (tree : FileTree) (p : Path) : Except ReadError (List String) :=
  if p.text = "" then .error .notFound
  else if p.isAbsolute then p.segments.foldlM tree.top.stepFrom []
  else (tree.workingDir ++ p.segments).foldlM tree.top.stepFrom []

/-- The place lies at the location, with the directories above it. -/
inductive Place.At (top : Node) : List String → Place → Prop where
  | top : At top [] ⟨top, []⟩
  | entry {names : List String} {entries : List (String × Node)} {above : List Node}
      {name : String} {node : Node} (hdir : At top names ⟨.dir entries, above⟩)
      (hentry : entries.lookup name = some node) :
      At top (names ++ [name]) ⟨node, .dir entries :: above⟩

namespace Place

variable {top : Node} {names : List String} {here : Place}

theorem At.at?_eq (h : At top names here) : top.at? names = some here.node := by
  induction h with
  | top => exact Node.at?_nil top
  | entry hdir hentry ih => rw [Node.at?_concat ih, hentry]

/-- **A step between places is a step between their locations.** -/
theorem At.step (h : At top names here) (segment : String) :
    (∃ e, here.step segment = .error e ∧ top.stepFrom names segment = .error e) ∨
      ∃ names' there, here.step segment = .ok there ∧ top.stepFrom names segment = .ok names' ∧
        At top names' there := by
  have hat := h.at?_eq
  obtain ⟨node, above⟩ := here
  cases node with
  | file content => exact .inl ⟨.notADirectory, rfl, by simp only [Node.stepFrom, hat]⟩
  | dir entries =>
    simp only [Place.step, Node.stepFrom, hat, Node.at?_concat hat]
    split
    · exact .inr ⟨names, _, rfl, rfl, h⟩
    · split
      · cases h with
        | top => exact .inr ⟨[], _, rfl, rfl, .top⟩
        | @entry names _ _ _ _ hdir hentry =>
          exact .inr ⟨names, _, rfl, by rw [List.dropLast_concat], hdir⟩
      · cases hentry : entries.lookup segment with
        | none => exact .inl ⟨.notFound, rfl, rfl⟩
        | some node => exact .inr ⟨names ++ [segment], _, rfl, rfl, .entry h hentry⟩

theorem At.walk : ∀ (segments : List String) {names : List String} {here : Place},
    At top names here →
      (∃ e, segments.foldlM Place.step here = .error e ∧
        segments.foldlM top.stepFrom names = .error e) ∨
      ∃ names' there, segments.foldlM Place.step here = .ok there ∧
        segments.foldlM top.stepFrom names = .ok names' ∧ At top names' there
  | [], names, here, h => .inr ⟨names, here, rfl, rfl, h⟩
  | segment :: rest, names, here, h => by
      rw [List.foldlM_cons, List.foldlM_cons]
      rcases h.step segment with ⟨e, hplace, hnames⟩ | ⟨names', there, hplace, hnames, hthere⟩
      · exact .inl ⟨e, by rw [hplace]; rfl, by rw [hnames]; rfl⟩
      · rw [hplace, hnames]
        exact At.walk rest hthere

end Place

variable {tree : FileTree} {p : Path} {names : List String} {node : Node}

theorem place_cases (tree : FileTree) (p : Path) :
    (∃ e, tree.place p = .error e ∧ tree.locate p = .error e) ∨
      ∃ names here, tree.place p = .ok here ∧ tree.locate p = .ok names ∧
        Place.At tree.top names here := by
  have hwalk := fun segments => Place.At.walk segments (.top : Place.At tree.top [] tree.topPlace)
  rw [place, locate]
  split
  · exact .inl ⟨.notFound, rfl, rfl⟩
  · split
    · exact hwalk p.segments
    · exact hwalk (tree.workingDir ++ p.segments)

/-- **A path leads to the node at its location**, or nowhere for the reason for which it has no
location. -/
theorem find_cases (tree : FileTree) (p : Path) :
    (∃ e, tree.find p = .error e ∧ tree.locate p = .error e) ∨
      ∃ names node, tree.find p = .ok node ∧ tree.locate p = .ok names ∧
        tree.top.at? names = some node := by
  rcases place_cases tree p with ⟨e, hplace, hnames⟩ | ⟨names, here, hplace, hnames, hat⟩
  · exact .inl ⟨e, by rw [find, hplace]; rfl, hnames⟩
  · exact .inr ⟨names, here.node, by rw [find, hplace]; rfl, hnames, hat.at?_eq⟩

theorem find_of_locate (hlocate : tree.locate p = .ok names)
    (hnode : tree.top.at? names = some node) : tree.find p = .ok node := by
  rcases find_cases tree p with ⟨e, -, hnames⟩ | ⟨names', node', hfind, hnames, hat⟩
  · rw [hlocate] at hnames
    cases hnames
  · obtain rfl : names = names' := Except.ok.inj (hlocate.symm.trans hnames)
    obtain rfl : node = node' := Option.some.inj (hnode.symm.trans hat)
    exact hfind

theorem exists_locate_of_find (hfind : tree.find p = .ok node) :
    ∃ names, tree.locate p = .ok names ∧ tree.top.at? names = some node := by
  rcases find_cases tree p with ⟨e, hfind', -⟩ | ⟨names, node', hfind', hnames, hat⟩
  · rw [hfind] at hfind'
    cases hfind'
  · obtain rfl : node = node' := Except.ok.inj (hfind.symm.trans hfind')
    exact ⟨names, hnames, hat⟩

/-! ## Locations of entries -/

theorem eq_of_stepFrom_empty {top : Node} {names names' : List String}
    (hstep : top.stepFrom names "" = .ok names') : names = names' := by
  rw [Node.stepFrom] at hstep
  split at hstep
  · cases hstep
  · cases hstep
  · exact Except.ok.inj hstep

/-- The path extended by a name leads one name further. -/
theorem locate_join {name : String} (hname : IsName name) (hlocate : tree.locate p = .ok names) :
    tree.locate (p.join name) = tree.top.stepFrom names name := by
  rw [locate] at hlocate
  rw [locate, if_neg (Path.text_join_ne hname p),
    Path.isAbsolute_join (Path.head?_ne_slash hname)]
  split at hlocate
  · cases hlocate
  · split at hlocate
    · rename_i habsolute
      rw [if_pos habsolute]
      exact foldlM_segments_join eq_of_stepFrom_empty hname [] hlocate
    · rename_i habsolute
      rw [if_neg habsolute]
      exact foldlM_segments_join eq_of_stepFrom_empty hname tree.workingDir hlocate

/-- An entry has the location of its directory, extended by its name. -/
theorem locate_join_of_isSome {name : String} (hname : IsName name)
    (hlocate : tree.locate p = .ok names) (hentry : (tree.top.at? (names ++ [name])).isSome) :
    tree.locate (p.join name) = .ok (names ++ [name]) := by
  have hdir : ∃ entries, tree.top.at? names = some (.dir entries) := by
    rw [Node.at?_append, Option.isSome_bind] at hentry
    cases hat : tree.top.at? names with
    | none => simp [hat] at hentry
    | some node =>
      cases node with
      | file content => simp [hat] at hentry
      | dir entries => exact ⟨entries, rfl⟩
  obtain ⟨entries, hdir⟩ := hdir
  rw [locate_join hname hlocate, Node.stepFrom, hdir]
  exact (if_neg (not_or.mpr ⟨hname.1, hname.2.1⟩)).trans
    ((if_neg hname.2.2.1).trans (if_pos hentry))

/-- A step by a name leads to the location that it extends, or nowhere. -/
theorem eq_of_stepFrom_isName {top : Node} {name : String} {names' : List String}
    (hname : IsName name) (hstep : top.stepFrom names name = .ok names') :
    names' = names ++ [name] := by
  rw [Node.stepFrom] at hstep
  split at hstep
  · cases hstep
  · cases hstep
  · rw [if_neg (not_or.mpr ⟨hname.1, hname.2.1⟩), if_neg hname.2.2.1] at hstep
    split at hstep
    · exact (Except.ok.inj hstep).symm
    · cases hstep

/-- A name leads to the location that it extends, or nowhere. -/
theorem locate_join_eq {name : String} {names' : List String} (hname : IsName name)
    (hlocate : tree.locate p = .ok names) (hjoin : tree.locate (p.join name) = .ok names') :
    names' = names ++ [name] :=
  eq_of_stepFrom_isName hname ((locate_join hname hlocate).symm.trans hjoin)

end SkillLint.FileTree
