/-
What a path is made of.

A path is cut at its slashes, and the fields that say nothing are left out.  What is left are its
components, and `IsPath` says which lists of components there are.  Each of them has a plain
spelling, `pathText`, with one slash between two fields, and the plain spelling of a path has the
components of the path (`pathComponents_pathText`).  So two paths are the same exactly if they have
one plain spelling (`samePath_iff`).
-/
import LoopFree.Path

namespace LoopFree

/-! ### Fields

Cutting at slashes is the library's `splitOn`, which its `intercalate` undoes.  So nothing of a
path is lost in its fields, and fields without slashes are cut out of a path just as they were put
in.
-/

theorem pathFields_eq_splitOn (cs : List Char) : pathFields cs = cs.splitOn '/' := by
  induction cs with
  | nil => rfl
  | cons c rest ih =>
      rw [pathFields, List.splitOn_cons_eq_if_modifyHead, ← ih]
      by_cases hc : c = '/'
      · rw [if_pos hc, if_pos (beq_iff_eq.mpr hc)]
      · rw [if_neg hc, if_neg (fun h => hc (beq_iff_eq.mp h))]
        cases hfields : pathFields rest with
        | nil =>
            rw [ih] at hfields
            exact absurd hfields (List.splitOn_ne_nil _ _)
        | cons field fields => rfl

/-- A path is its fields, with slashes between them. -/
theorem intercalate_pathFields (cs : List Char) : ['/'].intercalate (pathFields cs) = cs := by
  rw [pathFields_eq_splitOn]
  exact List.intercalate_splitOn '/'

/-- Fields without slashes are the fields of what they are put together to. -/
theorem pathFields_intercalate {fields : List (List Char)} (h : ∀ f ∈ fields, '/' ∉ f)
    (hne : fields ≠ []) : pathFields (['/'].intercalate fields) = fields := by
  rw [pathFields_eq_splitOn]
  exact List.splitOn_intercalate '/' h hne

/-- No field has a slash. -/
theorem slash_not_mem_of_mem_pathFields {cs f : List Char} (h : f ∈ pathFields cs) : '/' ∉ f := by
  induction cs generalizing f with
  | nil =>
      obtain rfl := List.mem_singleton.mp h
      exact List.not_mem_nil
  | cons c rest ih =>
      rw [pathFields] at h
      by_cases hc : c = '/'
      · rw [if_pos hc] at h
        rcases List.mem_cons.mp h with rfl | h
        · exact List.not_mem_nil
        · exact ih h
      · rw [if_neg hc] at h
        have hcons : ∀ {g : List Char}, '/' ∉ g → '/' ∉ c :: g := by
          intro g hg hmem
          rcases List.mem_cons.mp hmem with hslash | hmem
          · exact hc hslash.symm
          · exact hg hmem
        cases hfields : pathFields rest with
        | nil =>
            rw [hfields] at h
            obtain rfl := List.mem_singleton.mp h
            exact hcons List.not_mem_nil
        | cons field fields =>
            rw [hfields] at h ih
            rcases List.mem_cons.mp h with rfl | h
            · exact hcons (ih (List.mem_cons_self ..))
            · exact ih (List.mem_cons_of_mem _ h)

/-! ### Components

A field behind the first one stands for a step if it says anything: a name, or the way up.  The
root and the dot can only come first, which is all that there is to say about the order.
-/

/-- A name is no empty field, not one of the two that stand for directories, and has no slash. -/
structure IsPathName (s : List Char) : Prop where
  ne_nil : s ≠ []
  ne_current : s ≠ ['.']
  ne_parent : s ≠ ['.', '.']
  no_slash : '/' ∉ s

namespace PathComponent

/-- The field that a component is written as. -/
def field : PathComponent → List Char
  | root => []
  | current => ['.']
  | parent => ['.', '.']
  | name s => s

/-- The component may stand anywhere in a path. -/
def IsStep : PathComponent → Prop
  | parent => True
  | name s => IsPathName s
  | root | current => False

/-- A field that stands for a component is written as it. -/
theorem ofField_eq_some_iff {f : List Char} (hf : '/' ∉ f) {c : PathComponent} :
    ofField f = some c ↔ c.IsStep ∧ c.field = f := by
  constructor
  · intro h
    unfold ofField at h
    split at h
    · cases h
    · cases h
    · cases h
      exact ⟨trivial, rfl⟩
    · rename_i hnil hcurrent hparent
      cases h
      exact ⟨⟨hnil, hcurrent, hparent, hf⟩, rfl⟩
  · rintro ⟨hstep, rfl⟩
    cases c with
    | root | current => exact hstep.elim
    | parent => rfl
    | name s =>
        show ofField s = some (.name s)
        unfold ofField
        split
        · exact absurd rfl hstep.ne_nil
        · exact absurd rfl hstep.ne_current
        · exact absurd rfl hstep.ne_parent
        · rfl

/-- A field that stands for no component says nothing. -/
theorem eq_nil_or_dot_of_ofField {f : List Char} (h : ofField f = none) : f = [] ∨ f = ['.'] := by
  unfold ofField at h
  split at h
  · exact .inl rfl
  · exact .inr rfl
  · cases h
  · cases h

private theorem IsStep.no_slash {c : PathComponent} (h : c.IsStep) : '/' ∉ c.field := by
  cases c with
  | root | current => exact h.elim
  | parent => decide
  | name s => exact IsPathName.no_slash h

/-- Written down, a step is read as itself. -/
theorem IsStep.ofField {c : PathComponent} (h : c.IsStep) : ofField c.field = some c :=
  (ofField_eq_some_iff h.no_slash).mpr ⟨h, rfl⟩

private theorem filterMap_ofField_fields {cs : List PathComponent} (h : ∀ c ∈ cs, c.IsStep) :
    (cs.map field).filterMap ofField = cs := by
  induction cs with
  | nil => rfl
  | cons c rest ih =>
      obtain ⟨hc, hrest⟩ := List.forall_mem_cons.mp h
      rw [List.map_cons, List.filterMap_cons_some hc.ofField, ih hrest]

theorem isStep_of_mem_filterMap {cs : List Char} {c : PathComponent}
    (h : c ∈ (pathFields cs).filterMap ofField) : c.IsStep := by
  obtain ⟨f, hf, hc⟩ := List.mem_filterMap.mp h
  exact ((ofField_eq_some_iff (slash_not_mem_of_mem_pathFields hf)).mp hc).1

end PathComponent

open PathComponent

/-- Components that make a path: behind the first one there are steps only. -/
def IsPath : List PathComponent → Prop
  | [] => True
  | c :: rest => (c = .root ∨ c = .current ∨ c.IsStep) ∧ ∀ d ∈ rest, d.IsStep

/-- Behind a slash the path starts from the root. -/
theorem pathComponents_absolute (rest : List Char) :
    pathComponents (String.ofList ('/' :: rest))
      = .root :: (pathFields rest).filterMap ofField := by
  rw [pathComponents, String.toList_ofList]
  rfl

/-- Else a dot counts in front, and nowhere behind. -/
theorem pathComponents_relative {c : Char} {rest : List Char} (hc : c ≠ '/') :
    pathComponents (String.ofList (c :: rest))
      = (if (pathFields (c :: rest)).head? = some ['.'] then [.current] else [])
        ++ (pathFields (c :: rest)).filterMap ofField := by
  rw [pathComponents, String.toList_ofList]
  split
  · rename_i heq
    cases heq
  · rename_i heq
    cases heq
    exact absurd rfl hc
  · rfl

/-- **What a path is made of is a path.** -/
theorem isPath_pathComponents (p : String) : IsPath (pathComponents p) := by
  obtain ⟨cs, rfl⟩ : ∃ cs, p = String.ofList cs := ⟨p.toList, String.ofList_toList.symm⟩
  cases cs with
  | nil => exact trivial
  | cons c rest =>
      by_cases hc : c = '/'
      · subst hc
        rw [pathComponents_absolute]
        exact ⟨Or.inl rfl, fun d => isStep_of_mem_filterMap⟩
      · rw [pathComponents_relative hc]
        by_cases hdot : (pathFields (c :: rest)).head? = some ['.']
        · rw [if_pos hdot]
          exact ⟨Or.inr (Or.inl rfl), fun d => isStep_of_mem_filterMap⟩
        · rw [if_neg hdot, List.nil_append]
          have hall : ∀ d ∈ (pathFields (c :: rest)).filterMap ofField, d.IsStep :=
            fun d => isStep_of_mem_filterMap
          cases hsteps : (pathFields (c :: rest)).filterMap ofField with
          | nil => exact trivial
          | cons d steps =>
              rw [hsteps] at hall
              exact ⟨Or.inr (Or.inr (hall d (List.mem_cons_self ..))),
                fun d hd => hall d (List.mem_cons_of_mem _ hd)⟩

/-! ### Plain spellings

Of all the texts with the same components one has nothing to spare.  Comparing components, as
`samePath` does, is comparing these.
-/

/-- The fields of the components with one slash between two of them. -/
def pathText : List PathComponent → String
  | .root :: rest => String.ofList ('/' :: ['/'].intercalate (rest.map field))
  | cs => String.ofList (['/'].intercalate (cs.map field))

/-- The steps behind the first component are read back. -/
theorem filterMap_pathFields_intercalate {cs : List PathComponent} (h : ∀ c ∈ cs, c.IsStep) :
    (pathFields (['/'].intercalate (cs.map field))).filterMap ofField = cs := by
  cases cs with
  | nil => rfl
  | cons c rest =>
      have hfields : ∀ f ∈ (c :: rest).map field, '/' ∉ f := by
        intro f hf
        obtain ⟨d, hd, rfl⟩ := List.mem_map.mp hf
        exact (h d hd).no_slash
      rw [pathFields_intercalate hfields (List.cons_ne_nil _ _), filterMap_ofField_fields h]

private theorem pathText_of_ne_root {c : PathComponent} {rest : List PathComponent}
    (hc : c ≠ .root) :
    pathText (c :: rest) = String.ofList (['/'].intercalate (c.field :: rest.map field)) := by
  unfold pathText
  split
  · rename_i heq
    cases heq
    exact absurd rfl hc
  · rfl

/-- Steps alone make a relative path. -/
theorem isPath_of_steps {cs : List PathComponent} (h : ∀ c ∈ cs, c.IsStep) : IsPath cs := by
  cases cs with
  | nil => exact trivial
  | cons c rest =>
      obtain ⟨hc, hrest⟩ := List.forall_mem_cons.mp h
      exact ⟨.inr (.inr hc), hrest⟩

private theorem pathText_of_steps {cs : List PathComponent} (h : ∀ c ∈ cs, c.IsStep) :
    pathText cs = String.ofList (['/'].intercalate (cs.map field)) := by
  cases cs with
  | nil => rfl
  | cons c rest =>
      refine pathText_of_ne_root ?_
      rintro rfl
      exact (List.forall_mem_cons.mp h).1.elim

/-- A field in front stays in front. -/
theorem exists_intercalate_cons {f : List Char} (fields : List (List Char)) (hne : f ≠ [])
    (hslash : '/' ∉ f) :
    ∃ c rest, ['/'].intercalate (f :: fields) = c :: rest ∧ c ≠ '/' := by
  cases f with
  | nil => exact absurd rfl hne
  | cons c f =>
      have hc : c ≠ '/' := fun h => hslash (h ▸ List.mem_cons_self ..)
      cases fields with
      | nil => exact ⟨c, f, by simp [List.intercalate], hc⟩
      | cons g fields => exact ⟨c, _, by simp [List.intercalate]; rfl, hc⟩

/-- Where the first component is not the root, its field is in front and is no slash. -/
theorem field_of_first {c : PathComponent} (h : c = .current ∨ c.IsStep) :
    c.field ≠ [] ∧ '/' ∉ c.field := by
  rcases h with rfl | h
  · decide
  · refine ⟨fun hnil => ?_, h.no_slash⟩
    have hnone := h.ofField
    rw [hnil] at hnone
    cases hnone

private theorem pathComponents_pathText_relative {c : PathComponent} {rest : List PathComponent}
    (h : c = .current ∨ c.IsStep) (hrest : ∀ d ∈ rest, d.IsStep) :
    pathComponents (String.ofList (['/'].intercalate (c.field :: rest.map field))) = c :: rest := by
  obtain ⟨hne, hslash⟩ := field_of_first h
  have hfields : ∀ f ∈ c.field :: rest.map field, '/' ∉ f := by
    refine List.forall_mem_cons.mpr ⟨hslash, fun f hf => ?_⟩
    obtain ⟨d, hd, rfl⟩ := List.mem_map.mp hf
    exact (hrest d hd).no_slash
  obtain ⟨d, ds, htext, hd⟩ := exists_intercalate_cons (rest.map field) hne hslash
  rw [htext, pathComponents_relative hd, ← htext,
    pathFields_intercalate hfields (List.cons_ne_nil _ _), List.head?_cons]
  rcases h with rfl | hstep
  · show [current] ++ (rest.map field).filterMap ofField = _
    rw [filterMap_ofField_fields hrest]
    rfl
  · have hdot : some c.field ≠ some ['.'] := by
      intro hdot
      have hnone := hstep.ofField
      rw [Option.some.inj hdot] at hnone
      cases hnone
    have hsteps : ∀ d ∈ c :: rest, d.IsStep := List.forall_mem_cons.mpr ⟨hstep, hrest⟩
    rw [if_neg hdot, List.nil_append]
    exact filterMap_ofField_fields hsteps

/-- **The plain spelling of components has these components.** -/
theorem pathComponents_pathText {cs : List PathComponent} (h : IsPath cs) :
    pathComponents (pathText cs) = cs := by
  cases cs with
  | nil => rfl
  | cons c rest =>
      obtain ⟨rfl | hfirst, hrest⟩ := h
      · rw [pathText, pathComponents_absolute, filterMap_pathFields_intercalate hrest]
      · have hroot : c ≠ .root := by
          rintro rfl
          rcases hfirst with hfirst | hfirst
          · cases hfirst
          · exact hfirst
        rw [pathText_of_ne_root hroot, pathComponents_pathText_relative hfirst hrest]

/-- Names with slashes between them are the components of what they make. -/
theorem pathComponents_intercalate {names : List (List Char)} (h : ∀ s ∈ names, IsPathName s) :
    pathComponents (String.ofList (['/'].intercalate names)) = names.map .name := by
  have hfields : (names.map PathComponent.name).map field = names := by
    rw [List.map_map]
    exact List.map_id names
  have hsteps : ∀ c ∈ names.map PathComponent.name, c.IsStep := by
    intro c hc
    obtain ⟨name, hname, rfl⟩ := List.mem_map.mp hc
    exact h name hname
  have htext := pathText_of_steps hsteps
  rw [hfields] at htext
  rw [← htext, pathComponents_pathText (isPath_of_steps hsteps)]

/-- **Two paths are the same exactly if they have one plain spelling.** -/
theorem samePath_iff {p q : String} :
    samePath p q = true ↔ pathText (pathComponents p) = pathText (pathComponents q) := by
  rw [samePath, beq_iff_eq]
  constructor
  · intro h
    rw [h]
  · intro h
    rw [← pathComponents_pathText (isPath_pathComponents p), h,
      pathComponents_pathText (isPath_pathComponents q)]

/-- A path is the same as its plain spelling. -/
theorem samePath_pathText (p : String) : samePath (pathText (pathComponents p)) p = true := by
  rw [samePath, pathComponents_pathText (isPath_pathComponents p), beq_self_eq_true]

end LoopFree
