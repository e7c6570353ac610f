import SkillLint.Proofs.Workflow.Repetition
import SkillLint.Workflow.Manifest

/-!
# What the registry of commands remembers

`CommandRegistry` keeps two lists, and what they mean is a matter of the calls so far
(`Tracks`): the names listed at least once, and those listed at least twice, the empty
name apart.  Every call keeps this meaning (`Tracks.register`), so the answer to a call is
a function of the history: **a message comes exactly when one earlier call had the same
name** (`Tracks.answer`).

Over a whole list of calls (`messages`) the registry names the repeated names, each when it
comes for the second time (`Tracks.messages_eq`).  It is silent if and only if no name but the
empty one is repeated (`messages_eq_nil_iff`).
-/

namespace SkillLint.Workflow.CommandRegistry

/-- The registry after listing names, one after another. -/
def registerAll (r : CommandRegistry) (names : List String) : CommandRegistry :=
  names.foldl (fun r name => (r.register name).2) r

/-- The messages on listing names, one after another. -/
def messages (r : CommandRegistry) : List String → List String
  | [] => []
  | name :: rest => (r.register name).1.toList ++ messages (r.register name).2 rest

/-- What the lists of a registry mean after the names in `listed`. -/
structure Tracks (r : CommandRegistry) (listed : List String) : Prop where
  seen : ∀ name, name ∈ r.seen ↔ name ≠ "" ∧ name ∈ listed
  reported : ∀ name, name ∈ r.reported ↔ name ≠ "" ∧ 2 ≤ listed.count name

variable {r : CommandRegistry} {listed : List String}

theorem registerAll_append (r : CommandRegistry) (a b : List String) :
    r.registerAll (a ++ b) = (r.registerAll a).registerAll b :=
  List.foldl_append

theorem messages_append (r : CommandRegistry) : ∀ a b : List String,
    r.messages (a ++ b) = r.messages a ++ (r.registerAll a).messages b
  | [], _ => rfl
  | name :: a, b => by
      rw [List.cons_append, messages, messages, messages_append _ a b, List.append_assoc]
      rfl

theorem tracks_empty : empty.Tracks [] where
  seen _ := ⟨fun h => absurd h List.not_mem_nil, fun h => absurd h.2 List.not_mem_nil⟩
  reported _ := ⟨fun h => absurd h List.not_mem_nil, fun h => absurd h.2 (by simp)⟩

/-- **The answer to a call**: a message exactly when one earlier call had the name. -/
theorem Tracks.answer (h : r.Tracks listed) (name : String) :
    (r.register name).1 =
      if name ≠ "" ∧ listed.count name = 1 then some ("Duplicate command: '" ++ name ++ "'")
      else none := by
  have hseen := h.seen name
  have hreported := h.reported name
  have hcount : name ∈ listed ↔ 0 < listed.count name := List.count_pos_iff.symm
  rw [hcount] at hseen
  by_cases hname : name = ""
  · rw [register, if_pos hname, if_neg (fun hc => hc.1 hname)]
  · rw [register, if_neg hname]
    by_cases hs : name ∈ r.seen
    · rw [if_neg (by simp [hs])]
      have hpos := (hseen.mp hs).2
      by_cases hr : name ∈ r.reported
      · have htwo := (hreported.mp hr).2
        rw [if_pos (by simp [hr]), if_neg (by omega)]
      · have hlt : ¬ 2 ≤ listed.count name := fun hc => hr (hreported.mpr ⟨hname, hc⟩)
        rw [if_neg (by simp [hr]), if_pos ⟨hname, by omega⟩]
    · have hzero : ¬ 0 < listed.count name := fun hc => hs (hseen.mpr ⟨hname, hc⟩)
      rw [if_pos (by simp [hs]), if_neg (by omega)]

theorem mem_seen_register {name n : String} :
    n ∈ (r.register name).2.seen ↔ n ∈ r.seen ∨ n = name ∧ name ≠ "" := by
  unfold register
  grind

theorem mem_reported_register {name n : String} :
    n ∈ (r.register name).2.reported ↔ n ∈ r.reported ∨ n = name ∧ name ≠ "" ∧ name ∈ r.seen := by
  unfold register
  grind

/-- **Every call keeps the meaning of the lists.** -/
theorem Tracks.register (h : r.Tracks listed) (name : String) :
    (r.register name).2.Tracks (listed ++ [name]) where
  seen n := by
    rw [mem_seen_register, h.seen, List.mem_append, List.mem_singleton]
    constructor
    · rintro (⟨hn, hl⟩ | ⟨rfl, hn⟩)
      · exact ⟨hn, .inl hl⟩
      · exact ⟨hn, .inr rfl⟩
    · rintro ⟨hn, hl | rfl⟩
      · exact .inl ⟨hn, hl⟩
      · exact .inr ⟨rfl, hn⟩
  reported n := by
    rw [mem_reported_register, h.reported, h.seen, ← List.count_pos_iff, List.count_append,
      List.count_singleton]
    by_cases hn : n = name
    · subst hn
      rw [beq_self_eq_true, if_pos rfl]
      constructor
      · rintro (⟨hne, hc⟩ | ⟨-, hne, -, hc⟩) <;> exact ⟨hne, by omega⟩
      · rintro ⟨hne, hc⟩
        exact .inr ⟨rfl, hne, hne, by omega⟩
    · rw [if_neg (by simpa using Ne.symm hn), Nat.add_zero]
      exact ⟨fun hc => hc.resolve_right fun he => hn he.1, .inl⟩

/-- After any calls the lists mean what these calls were. -/
theorem Tracks.registerAll : ∀ (names : List String) {r : CommandRegistry} {listed : List String},
    r.Tracks listed → (r.registerAll names).Tracks (listed ++ names)
  | [], _, _, h => by rwa [List.append_nil]
  | name :: rest, _, _, h => by
      rw [List.append_cons]
      exact (h.register name).registerAll rest

/-- The message about a command that is listed twice. -/
def duplicateMessage (name : String) : String := "Duplicate command: '" ++ name ++ "'"

/-- **There is one message for each repeated name**, when it comes for the second time. -/
theorem Tracks.messages_eq : ∀ (names : List String) {r : CommandRegistry} {listed : List String},
    r.Tracks listed → r.messages names = (repeatedIn listed names).map duplicateMessage
  | [], _, _, _ => rfl
  | name :: rest, _, listed, h => by
      rw [messages, repeatedIn, List.map_append, ← (h.register name).messages_eq rest,
        h.answer name]
      by_cases hrepeated : name ≠ "" ∧ listed.count name = 1
      · rw [if_pos hrepeated, if_pos hrepeated]
        rfl
      · rw [if_neg hrepeated, if_neg hrepeated]
        rfl

/-- **The registry is silent if and only if no name but the empty one is repeated.** -/
theorem messages_eq_nil_iff (names : List String) :
    empty.messages names = [] ↔ (names.filter (· ≠ "")).Nodup := by
  rw [tracks_empty.messages_eq, List.map_eq_nil_iff, repeatedIn_eq_nil_iff]

end SkillLint.Workflow.CommandRegistry
