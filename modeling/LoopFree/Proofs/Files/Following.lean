/-
Where a path leads.

A path is followed field by field, and `Step` says all that a field can do.  In the tree only a
name leads on, to what stands under it, and so everything that a path leads to is reached by names
alone, each in the directory that the names before it lead to: `Leads` says so.  These names are
the canonical path, which therefore leads where the path does (`resolve_canonicalPath`), opens what
the path opens (`openSource_canonicalPath`) and tells two places apart (`canonicalPath_inj`).
-/
import LoopFree.FileTree
import LoopFree.Proofs.Files.Paths

namespace LoopFree

/-- A name that a file can have. -/
structure IsFileName (s : List Char) : Prop extends IsPathName s where
  no_nul : '\x00' ∉ s
  short : (String.ofList s).utf8ByteSize ≤ FileTree.maxNameBytes

namespace FileTree

variable {t : FileTree}

/-! ### Steps

A step starts from a directory, never from a file, not even where it stays.  Outside of the tree
there is only the way further up.
-/

/-- From the first place the field leads to the second one. -/
inductive Step (t : FileTree) : Place → List Char → Place → Prop
  /-- Nothing, and a dot, lead nowhere else. -/
  | stay {here : Place} {f : List Char} (hplace : ∀ names text, here ≠ .file names text)
      (hf : f = [] ∨ f = ['.']) : Step t here f here
  /-- Two dots take the last name back. -/
  | up (names : List (List Char)) (name : List Char) :
      Step t (.directory (names ++ [name])) ['.', '.'] (.directory names)
  /-- Above the working directory is what the tree does not have. -/
  | leave : Step t (.directory []) ['.', '.'] .outside
  | outside : Step t .outside ['.', '.'] .outside
  /-- A name leads to what the tree has under it. -/
  | name {names : List (List Char)} {f : List Char} {there : Place} (hnil : f ≠ [])
      (hcurrent : f ≠ ['.']) (hparent : f ≠ ['.', '.'])
      (hshort : (String.ofList f).utf8ByteSize ≤ maxNameBytes)
      (hlookup : t.lookup (names ++ [f]) = some there) : Step t (.directory names) f there

private theorem step_stay {here : Place} {f : List Char}
    (hplace : ∀ names text, here ≠ .file names text) (hf : f = [] ∨ f = ['.']) :
    t.step here f = .ok here := by
  cases here with
  | file names text => exact absurd rfl (hplace names text)
  | directory names => rcases hf with rfl | rfl <;> rfl
  | outside => rcases hf with rfl | rfl <;> rfl

private theorem step_parent (names : List (List Char)) (name : List Char) :
    t.step (.directory (names ++ [name])) ['.', '.'] = .ok (.directory names) := by
  have hne : (names ++ [name]).isEmpty = false := by simp
  show Except.ok (if (names ++ [name]).isEmpty then _ else _) = _
  rw [hne, List.dropLast_concat]
  rfl

private theorem step_name {here : Place} {f : List Char} (hnil : f ≠ []) (hcurrent : f ≠ ['.'])
    (hparent : f ≠ ['.', '.']) {there : Place} :
    t.step here f = .ok there ↔
      (String.ofList f).utf8ByteSize ≤ maxNameBytes
        ∧ ∃ names, here = .directory names ∧ t.lookup (names ++ [f]) = some there := by
  unfold step
  split
  · simp
  · exact absurd rfl hnil
  · exact absurd rfl hcurrent
  · exact absurd rfl hparent
  · exact absurd rfl hparent
  · by_cases hlong : maxNameBytes < (String.ofList f).utf8ByteSize
    · rw [if_pos hlong]
      simp [Nat.not_le.mpr hlong]
    · rw [if_neg hlong]
      cases here with
      | file names text => simp
      | outside => simp
      | directory names =>
          cases hlookup : t.lookup (names ++ [f]) with
          | none => simp [hlookup]
          | some place => simp [hlookup, Nat.not_lt.mp hlong]

/-- **What a field does to a place.** -/
theorem step_eq_ok_iff {here there : Place} {f : List Char} :
    t.step here f = .ok there ↔ Step t here f there := by
  constructor
  · intro h
    by_cases hstay : f = [] ∨ f = ['.']
    · have hplace : ∀ names text, here ≠ .file names text := by
        rintro names text rfl
        cases h
      rw [step_stay hplace hstay] at h
      cases h
      exact .stay hplace hstay
    · obtain ⟨hnil, hcurrent⟩ := not_or.mp hstay
      by_cases hparent : f = ['.', '.']
      · subst hparent
        cases here with
        | file names text => cases h
        | outside =>
            cases h
            exact .outside
        | directory names =>
            rcases List.eq_nil_or_concat names with rfl | ⟨names, name, rfl⟩
            · cases h
              exact .leave
            · rw [List.concat_eq_append, step_parent] at h
              cases h
              rw [List.concat_eq_append]
              exact .up names name
      · obtain ⟨hshort, names, rfl, hlookup⟩ := (step_name hnil hcurrent hparent).mp h
        exact .name hnil hcurrent hparent hshort hlookup
  · intro h
    cases h with
    | stay hplace hf => exact step_stay hplace hf
    | up names name => exact step_parent names name
    | leave => rfl
    | outside => rfl
    | name hnil hcurrent hparent hshort hlookup =>
        exact (step_name hnil hcurrent hparent).mpr ⟨hshort, _, rfl, hlookup⟩

/-- Nothing, and a dot, lead nowhere else. -/
theorem Step.eq_of_stays {here there : Place} {f : List Char} (h : Step t here f there)
    (hf : f = [] ∨ f = ['.']) : there = here := by
  cases h with
  | stay => rfl
  | up | leave | outside => rcases hf with hf | hf <;> cases hf
  | name hnil hcurrent =>
      rcases hf with hf | hf
      · exact absurd hf hnil
      · exact absurd hf hcurrent

private theorem foldlM_cons_eq_ok_iff {here there : Place} {f : List Char}
    {fields : List (List Char)} :
    (f :: fields).foldlM t.step here = .ok there ↔
      ∃ next, Step t here f next ∧ fields.foldlM t.step next = .ok there := by
  rw [List.foldlM_cons]
  constructor
  · intro h
    cases hstep : t.step here f with
    | error why =>
        rw [hstep] at h
        cases h
    | ok next =>
        rw [hstep] at h
        exact ⟨next, step_eq_ok_iff.mp hstep, h⟩
  · rintro ⟨next, hstep, h⟩
    rw [step_eq_ok_iff.mpr hstep]
    exact h

/-! ### Fields in a row

What a path's fields have in common is that none has a slash or the character that ends a path.
Their bytes, each counted with a slash, are the bytes of the path with one slash more.
-/

/-- A part of a path between two slashes. -/
structure IsField (f : List Char) : Prop where
  no_slash : '/' ∉ f
  no_nul : '\x00' ∉ f

/-- The bytes of the fields, each with a slash. -/
def fieldBytes : List (List Char) → Nat
  | [] => 0
  | f :: rest => (String.ofList f).utf8ByteSize + 1 + fieldBytes rest

private theorem fieldBytes_cons (f : List Char) (fields : List (List Char)) :
    fieldBytes (f :: fields) = (String.ofList f).utf8ByteSize + 1 + fieldBytes fields :=
  rfl

private theorem fieldBytes_append (fields fields' : List (List Char)) :
    fieldBytes (fields ++ fields') = fieldBytes fields + fieldBytes fields' := by
  induction fields with
  | nil => exact (Nat.zero_add _).symm
  | cons f rest ih =>
      rw [List.cons_append, fieldBytes_cons, fieldBytes_cons, ih, Nat.add_assoc _ (fieldBytes rest)]

/-- Put together with slashes between them, fields have one slash less. -/
theorem utf8ByteSize_intercalate {fields : List (List Char)} (hne : fields ≠ []) :
    (String.ofList (['/'].intercalate fields)).utf8ByteSize + 1 = fieldBytes fields := by
  induction fields with
  | nil => exact absurd rfl hne
  | cons f rest ih =>
      by_cases hrest : rest = []
      · subst hrest
        rw [List.intercalate_singleton, fieldBytes_cons]
        rfl
      · have hslash : (String.ofList ['/']).utf8ByteSize = 1 := rfl
        rw [List.intercalate_cons_of_ne_nil hrest, String.ofList_append, String.ofList_append,
          String.utf8ByteSize_append, String.utf8ByteSize_append, fieldBytes_cons, ← ih hrest]
        omega

private theorem fieldBytes_pathFields (cs : List Char) :
    fieldBytes (pathFields cs) = (String.ofList cs).utf8ByteSize + 1 := by
  have hne : pathFields cs ≠ [] := by
    rw [pathFields_eq_splitOn]
    exact List.splitOn_ne_nil _ _
  rw [← utf8ByteSize_intercalate hne, intercalate_pathFields]

private theorem mem_intercalate {c : Char} {fields : List (List Char)}
    (h : c ∈ ['/'].intercalate fields) : c = '/' ∨ ∃ f ∈ fields, c ∈ f := by
  induction fields with
  | nil => cases h
  | cons f rest ih =>
      by_cases hrest : rest = []
      · subst hrest
        rw [List.intercalate_singleton] at h
        exact .inr ⟨f, List.mem_cons_self .., h⟩
      · rw [List.intercalate_cons_of_ne_nil hrest] at h
        rcases List.mem_append.mp h with h | h
        · rcases List.mem_append.mp h with h | h
          · exact .inr ⟨f, List.mem_cons_self .., h⟩
          · exact .inl (List.mem_singleton.mp h)
        · exact (ih h).imp_right fun ⟨g, hg, hc⟩ => ⟨g, List.mem_cons_of_mem _ hg, hc⟩

private theorem mem_intercalate_of_mem {c : Char} {f : List Char} {fields : List (List Char)}
    (hf : f ∈ fields) (hc : c ∈ f) : c ∈ ['/'].intercalate fields := by
  induction fields with
  | nil => cases hf
  | cons g rest ih =>
      by_cases hrest : rest = []
      · subst hrest
        obtain rfl := List.mem_singleton.mp hf
        rwa [List.intercalate_singleton]
      · rw [List.intercalate_cons_of_ne_nil hrest]
        rcases List.mem_cons.mp hf with rfl | hf
        · exact List.mem_append_left _ (List.mem_append_left _ hc)
        · exact List.mem_append_right _ (ih hf)

private theorem isField_of_mem_pathFields {cs f : List Char} (hnul : '\x00' ∉ cs)
    (hf : f ∈ pathFields cs) : IsField f := by
  refine ⟨slash_not_mem_of_mem_pathFields hf, fun hc => hnul ?_⟩
  have hmem := mem_intercalate_of_mem hf hc
  rwa [intercalate_pathFields] at hmem

/-! ### Names that lead somewhere

Names alone never leave the tree and never go back.
-/

/-- The names lead to the place, each of them from the directory that those before it lead to. -/
inductive Leads (t : FileTree) : List (List Char) → Place → Prop
  | nil : Leads t [] (.directory [])
  | concat {names : List (List Char)} {name : List Char} {place : Place}
      (hnames : Leads t names (.directory names)) (hname : IsFileName name)
      (hlookup : t.lookup (names ++ [name]) = some place) : Leads t (names ++ [name]) place

private theorem place_of_lookup {names : List (List Char)} {place : Place}
    (h : t.lookup names = some place) :
    place = .directory names ∨ ∃ text, place = .file names text := by
  unfold lookup at h
  split at h
  · cases h
    exact .inr ⟨_, rfl⟩
  · by_cases hbelow : (t.files.any fun f => names.isPrefixOf f.1) = true
    · rw [if_pos hbelow] at h
      cases h
      exact .inl rfl
    · rw [if_neg hbelow] at h
      cases h

namespace Leads

variable {names : List (List Char)} {place : Place}

/-- A place is told by the names that lead to it. -/
theorem place_eq (h : Leads t names place) :
    place = .directory names ∨ ∃ text, place = .file names text := by
  cases h with
  | nil => exact .inl rfl
  | concat hnames hname hlookup => exact place_of_lookup hlookup

private theorem eq_of_directory {names' : List (List Char)}
    (h : Leads t names (.directory names')) : names = names' := by
  obtain heq | ⟨text, heq⟩ := h.place_eq
  · exact (Place.directory.inj heq).symm
  · cases heq

/-- There is one way of names alone to a place. -/
theorem names_unique (h : Leads t names place) {names' : List (List Char)}
    (h' : Leads t names' place) : names = names' := by
  obtain rfl | ⟨text, rfl⟩ := h.place_eq
  · exact h'.eq_of_directory.symm
  · obtain heq | ⟨text, heq⟩ := h'.place_eq
    · cases heq
    · exact (Place.file.inj heq).1

private theorem isFileName (h : Leads t names place) : ∀ f ∈ names, IsFileName f := by
  induction h with
  | nil => exact fun f hf => absurd hf List.not_mem_nil
  | concat hnames hname hlookup ih =>
      intro f hf
      rcases List.mem_append.mp hf with hf | hf
      · exact ih f hf
      · obtain rfl := List.mem_singleton.mp hf
        exact hname

private theorem init {name : List Char} (h : Leads t (names ++ [name]) place) :
    Leads t names (.directory names) := by
  generalize hall : names ++ [name] = all at h
  cases h with
  | nil => exact absurd hall (List.append_ne_nil_of_right_ne_nil _ (List.cons_ne_nil _ _))
  | concat hnames hname hlookup =>
      obtain ⟨rfl, -⟩ := List.append_inj' hall rfl
      exact hnames

/-- Followed from the working directory, names that lead to a place are steps to it. -/
theorem foldlM_step (h : Leads t names place) :
    names.foldlM t.step (.directory []) = .ok place := by
  induction h with
  | nil => rfl
  | concat hnames hname hlookup ih =>
      have hstep := step_eq_ok_iff.mpr
        (.name hname.ne_nil hname.ne_current hname.ne_parent hname.short hlookup)
      rw [List.foldlM_append, ih]
      exact congrArg (· >>= pure) hstep

/-- The names lead to one place only. -/
theorem place_unique (h : Leads t names place) {place' : Place} (h' : Leads t names place') :
    place = place' :=
  Except.ok.inj (h.foldlM_step.symm.trans h'.foldlM_step)

end Leads

/-! ### Whole paths

Whatever steps lead to is out of the tree, or there are names that lead to it, and the names are
no longer than the fields.  A step keeps this, and so a path has it.
-/

/-- What fields of so many bytes can lead to. -/
inductive Reached (t : FileTree) (bytes : Nat) : Place → Prop
  | outside : Reached t bytes .outside
  | inside {names : List (List Char)} {place : Place} (hnames : Leads t names place)
      (hbytes : fieldBytes names ≤ bytes) : Reached t bytes place

private theorem Step.reached {here there : Place} {f : List Char} {bytes : Nat}
    (h : Step t here f there) (hf : IsField f) (hhere : Reached t bytes here) :
    Reached t (bytes + ((String.ofList f).utf8ByteSize + 1)) there := by
  cases hhere with
  | outside =>
      cases h with
      | stay => exact .outside
      | outside => exact .outside
  | inside hnames hbytes =>
      cases h with
      | stay => exact .inside hnames (by omega)
      | leave => exact .outside
      | outside => exact .outside
      | up shorter name =>
          obtain rfl := hnames.eq_of_directory
          rw [fieldBytes_append] at hbytes
          exact .inside hnames.init (by omega)
      | name hnil hcurrent hparent hshort hlookup =>
          obtain rfl := hnames.eq_of_directory
          have hname : IsFileName f :=
            ⟨⟨hnil, hcurrent, hparent, hf.no_slash⟩, hf.no_nul, hshort⟩
          refine .inside (.concat hnames hname hlookup) ?_
          rw [fieldBytes_append, fieldBytes_cons]
          exact Nat.add_le_add_right hbytes _

private theorem reached_of_foldlM {fields : List (List Char)}
    (hfields : ∀ f ∈ fields, IsField f) :
    ∀ {here there : Place} {bytes : Nat}, Reached t bytes here →
      fields.foldlM t.step here = .ok there → Reached t (bytes + fieldBytes fields) there := by
  induction fields with
  | nil =>
      intro here there bytes hhere h
      cases h
      exact hhere
  | cons f rest ih =>
      intro here there bytes hhere h
      obtain ⟨hf, hrest⟩ := List.forall_mem_cons.mp hfields
      obtain ⟨next, hstep, hfollow⟩ := foldlM_cons_eq_ok_iff.mp h
      rw [fieldBytes_cons, ← Nat.add_assoc]
      exact ih hrest (hstep.reached hf hhere) hfollow

/-- Where a path starts from. -/
def origin (cs : List Char) : Place :=
  if cs.head? = some '/' then .outside else .directory []

/-- A path leads where its fields lead from its origin, if it is one that can be followed. -/
theorem resolve_eq_ok_iff {p : String} {place : Place} :
    t.resolve p = .ok place ↔
      '\x00' ∉ p.toList ∧ p.toList ≠ []
        ∧ (pathFields p.toList).foldlM t.step (origin p.toList) = .ok place := by
  unfold resolve
  generalize p.toList = cs
  by_cases hnul : '\x00' ∈ cs
  · simp [hnul]
  · cases cs with
    | nil => simp
    | cons c rest =>
        by_cases hc : c = '/'
        · subst hc
          have hroot : t.step .outside [] = .ok .outside := rfl
          simp [hnul, pathFields, origin, hroot]
          rfl
        · simp [hnul, origin, hc]

private theorem reached_of_resolve {p : String} {place : Place} (h : t.resolve p = .ok place) :
    Reached t (p.utf8ByteSize + 1) place := by
  obtain ⟨hnul, hne, hfold⟩ := resolve_eq_ok_iff.mp h
  have hfields := fun f => isField_of_mem_pathFields (f := f) hnul
  have hbytes : fieldBytes (pathFields p.toList) = p.utf8ByteSize + 1 := by
    rw [fieldBytes_pathFields, String.ofList_toList]
  rw [← hbytes, ← Nat.zero_add (fieldBytes _)]
  refine reached_of_foldlM hfields ?_ hfold
  unfold origin
  split
  · exact .outside
  · exact .inside .nil (Nat.le_refl 0)

/-! ### Canonical paths

A file is asked for by one path and watched by another one, its canonical path.  The watcher is
right only if both lead to one place, and if the second one is never refused where the first one
was taken: it must not have grown too long.
-/

private theorem intercalate_ofList (names : List (List Char)) :
    "/".intercalate (names.map String.ofList) = String.ofList (['/'].intercalate names) := by
  have hid : String.toList ∘ String.ofList = id := funext fun cs => String.toList_ofList
  have hslash : "/".toList = ['/'] := rfl
  rw [← String.toList_inj, String.toList_intercalate, List.map_map, hid, List.map_id, hslash,
    String.toList_ofList]

private theorem canonicalPath_eq_ok_iff {p q : String} :
    t.canonicalPath p = .ok q ↔
      ∃ names place, t.resolve p = .ok place ∧ Leads t names place
        ∧ q = String.ofList (['/'].intercalate names) := by
  unfold canonicalPath
  constructor
  · intro h
    cases hplace : t.resolve p with
    | error why =>
        rw [hplace] at h
        cases h
    | ok place =>
        rw [hplace] at h
        cases reached_of_resolve hplace with
        | outside => cases h
        | @inside names _ hnames hbytes =>
            refine ⟨names, place, rfl, hnames, ?_⟩
            rw [← intercalate_ofList]
            obtain rfl | ⟨text, rfl⟩ := hnames.place_eq
            · cases h
              rfl
            · cases h
              rfl
  · rintro ⟨names, place, hplace, hnames, rfl⟩
    rw [hplace, ← intercalate_ofList]
    obtain rfl | ⟨text, rfl⟩ := hnames.place_eq
    · rfl
    · rfl

namespace Leads

variable {names : List (List Char)} {place : Place}

private theorem pathFields_eq (h : Leads t names place) (hne : names ≠ []) :
    pathFields (['/'].intercalate names) = names :=
  pathFields_intercalate (fun f hf => (h.isFileName f hf).no_slash) hne

private theorem intercalate_eq_nil (h : Leads t names place)
    (hnil : ['/'].intercalate names = []) : names = [] := by
  cases names with
  | nil => rfl
  | cons name rest =>
      have hname := h.isFileName name (List.mem_cons_self ..)
      obtain ⟨c, cs, htext, -⟩ :=
        exists_intercalate_cons rest hname.ne_nil hname.no_slash
      rw [htext] at hnil
      cases hnil

/-- The names can be told from the path that they are. -/
theorem intercalate_inj (h : Leads t names place) {names' : List (List Char)} {place' : Place}
    (h' : Leads t names' place') (heq : ['/'].intercalate names = ['/'].intercalate names') :
    names = names' := by
  by_cases hne : names = []
  · subst hne
    exact (h'.intercalate_eq_nil heq.symm).symm
  · have hne' : names' ≠ [] := by
      rintro rfl
      exact hne (h.intercalate_eq_nil heq)
    rw [← h.pathFields_eq hne, heq, h'.pathFields_eq hne']

/-- Names that lead to a place are a path to it. -/
theorem resolve_eq (h : Leads t names place) (hne : names ≠ []) :
    t.resolve (String.ofList (['/'].intercalate names)) = .ok place := by
  rw [resolve_eq_ok_iff, String.toList_ofList]
  cases names with
  | nil => exact absurd rfl hne
  | cons name rest =>
      have hname := h.isFileName name (List.mem_cons_self ..)
      obtain ⟨c, cs, htext, hc⟩ :=
        exists_intercalate_cons rest hname.ne_nil hname.no_slash
      refine ⟨fun hnul => ?_, ?_, ?_⟩
      · obtain hslash | ⟨f, hf, hmem⟩ := mem_intercalate hnul
        · cases hslash
        · exact (h.isFileName f hf).no_nul hmem
      · rw [htext]
        exact List.cons_ne_nil c cs
      · have horigin : origin (['/'].intercalate (name :: rest)) = .directory [] := by
          rw [htext, origin, List.head?_cons, if_neg fun heq => hc (Option.some.inj heq)]
        rw [h.pathFields_eq hne, horigin]
        exact h.foldlM_step

end Leads

/-- **The canonical path of a path leads where the path leads.**  Only the working directory has
no canonical path of its own. -/
theorem resolve_canonicalPath {p q : String} (h : t.canonicalPath p = .ok q) (hne : q ≠ "") :
    t.resolve q = t.resolve p := by
  obtain ⟨names, place, hplace, hnames, rfl⟩ := canonicalPath_eq_ok_iff.mp h
  rw [hplace]
  refine hnames.resolve_eq ?_
  rintro rfl
  exact hne rfl

/-- A canonical path is its own. -/
theorem canonicalPath_canonicalPath {p q : String} (h : t.canonicalPath p = .ok q)
    (hne : q ≠ "") : t.canonicalPath q = .ok q := by
  rw [canonicalPath, resolve_canonicalPath h hne]
  exact h

/-- **Two paths have one canonical path exactly if they lead to one place.** -/
theorem canonicalPath_inj {p p' q q' : String} (h : t.canonicalPath p = .ok q)
    (h' : t.canonicalPath p' = .ok q') : q = q' ↔ t.resolve p = t.resolve p' := by
  obtain ⟨names, place, hplace, hnames, rfl⟩ := canonicalPath_eq_ok_iff.mp h
  obtain ⟨names', place', hplace', hnames', rfl⟩ := canonicalPath_eq_ok_iff.mp h'
  rw [hplace, hplace']
  constructor
  · intro heq
    obtain rfl := hnames.intercalate_inj hnames' (String.ofList_injective heq)
    rw [hnames.place_unique hnames']
  · intro heq
    obtain rfl := Except.ok.inj heq
    rw [hnames.names_unique hnames']

/-- No canonical path is longer than the path. -/
theorem utf8ByteSize_canonicalPath {p q : String} (h : t.canonicalPath p = .ok q) :
    q.utf8ByteSize ≤ p.utf8ByteSize := by
  obtain ⟨names, place, hplace, hnames, rfl⟩ := canonicalPath_eq_ok_iff.mp h
  cases reached_of_resolve hplace with
  | outside =>
      obtain heq | ⟨text, heq⟩ := hnames.place_eq <;> cases heq
  | inside hnames' hbytes =>
      obtain rfl := hnames.names_unique hnames'
      by_cases hne : names = []
      · subst hne
        exact Nat.zero_le _
      · rw [← utf8ByteSize_intercalate hne] at hbytes
        exact Nat.le_of_succ_le_succ hbytes

/-- What a place is when it is read. -/
def sourceAt : Place → Source
  | .file _ text => .ofString text
  | .directory _ | .outside => .directory

theorem openSource_eq_ok_iff {p : String} {source : Source} :
    t.openSource p = .ok source ↔
      p.utf8ByteSize ≤ maxPathBytes
        ∧ ∃ place, t.resolve p = .ok place ∧ sourceAt place = source := by
  unfold openSource
  constructor
  · intro h
    split at h
    · cases h
    · rename_i hlong
      cases hplace : t.resolve p with
      | error why =>
          rw [hplace] at h
          cases h
      | ok place =>
          have hnul := (resolve_eq_ok_iff.mp hplace).1
          rw [hplace] at h
          refine ⟨by simpa [hnul] using hlong, place, rfl, ?_⟩
          cases place <;> cases h <;> rfl
  · rintro ⟨hshort, place, hplace, rfl⟩
    rw [if_neg (by simp [Nat.not_lt.mpr hshort]), hplace]
    cases place <;> rfl

/-- **The canonical path of a path opens what the path opens.** -/
theorem openSource_canonicalPath {p q : String} {source : Source} (h : t.canonicalPath p = .ok q)
    (hne : q ≠ "") (hopen : t.openSource p = .ok source) : t.openSource q = .ok source := by
  obtain ⟨hshort, hplace⟩ := openSource_eq_ok_iff.mp hopen
  rw [openSource_eq_ok_iff, resolve_canonicalPath h hne]
  exact ⟨Nat.le_trans (utf8ByteSize_canonicalPath h) hshort, hplace⟩

/-! ### Paths that are the same

Comparing components looks nothing up, so it could take two files for one, or miss that two paths
lead to one file.  The first never happens.  The second does, where a path goes up and comes down
again, but not between canonical paths.
-/

/-- Where the components of a path start from. -/
def originOf : List PathComponent → Place
  | .root :: _ => .outside
  | _ => .directory []

open PathComponent

private theorem foldlM_filterMap {fields : List (List Char)}
    (hfields : ∀ f ∈ fields, '/' ∉ f) :
    ∀ {here there : Place}, fields.foldlM t.step here = .ok there →
      ((fields.filterMap ofField).map field).foldlM t.step here = .ok there := by
  induction fields with
  | nil => exact fun h => h
  | cons f rest ih =>
      intro here there h
      obtain ⟨hf, hrest⟩ := List.forall_mem_cons.mp hfields
      obtain ⟨next, hstep, hfollow⟩ := foldlM_cons_eq_ok_iff.mp h
      cases hc : ofField f with
      | none =>
          rw [List.filterMap_cons_none hc, ← hstep.eq_of_stays (eq_nil_or_dot_of_ofField hc)]
          exact ih hrest hfollow
      | some c =>
          obtain ⟨-, rfl⟩ := (ofField_eq_some_iff hf).mp hc
          rw [List.filterMap_cons_some hc, List.map_cons, foldlM_cons_eq_ok_iff]
          exact ⟨next, hstep, ih hrest hfollow⟩

/-- The components of a path lead where the path leads. -/
theorem foldlM_pathComponents {p : String} {place : Place} (h : t.resolve p = .ok place) :
    ((pathComponents p).map field).foldlM t.step (originOf (pathComponents p)) = .ok place := by
  obtain ⟨-, hne, hfold⟩ := resolve_eq_ok_iff.mp h
  obtain ⟨cs, rfl⟩ : ∃ cs, p = String.ofList cs := ⟨p.toList, String.ofList_toList.symm⟩
  rw [String.toList_ofList] at hne hfold
  cases cs with
  | nil => exact absurd rfl hne
  | cons c rest =>
      by_cases hc : c = '/'
      · subst hc
        rw [pathFields, if_pos rfl] at hfold
        rw [pathComponents_absolute]
        exact foldlM_filterMap (fun f hf => slash_not_mem_of_mem_pathFields hf) hfold
      · have horigin : origin (c :: rest) = .directory [] :=
          if_neg fun heq => hc (Option.some.inj heq)
        have hsteps := foldlM_filterMap (fun f hf => slash_not_mem_of_mem_pathFields hf) hfold
        rw [horigin] at hsteps
        rw [pathComponents_relative hc]
        by_cases hdot : (pathFields (c :: rest)).head? = some ['.']
        · rw [if_pos hdot]
          exact hsteps
        · rw [if_neg hdot, List.nil_append]
          cases hcs : (pathFields (c :: rest)).filterMap ofField with
          | nil =>
              rw [hcs] at hsteps
              exact hsteps
          | cons d ds =>
              have hd : d.IsStep :=
                isStep_of_mem_filterMap (hcs ▸ List.mem_cons_self ..)
              rw [hcs] at hsteps
              cases d with
              | root => exact hd.elim
              | current | parent | name => exact hsteps

/-- **Paths that are the same lead to one place, if both lead somewhere.**  One of them may lead
nowhere, for a slash behind a file needs the file to be a directory. -/
theorem resolve_congr {p q : String} (h : samePath p q = true) {x y : Place}
    (hx : t.resolve p = .ok x) (hy : t.resolve q = .ok y) : x = y := by
  have hfold := foldlM_pathComponents hx
  rw [beq_iff_eq.mp h, foldlM_pathComponents hy] at hfold
  exact (Except.ok.inj hfold).symm

/-- The two paths are the same, and the second one leads nowhere. -/
example :
    samePath "./lib//sum.simpl" "./lib/sum.simpl/" = true
      ∧ (ofFiles [("lib/sum.simpl", "")]).canonicalPath "./lib//sum.simpl" = .ok "lib/sum.simpl"
      ∧ (ofFiles [("lib/sum.simpl", "")]).resolve "./lib/sum.simpl/" = .error .notADirectory :=
  ⟨by decide, by rfl, by rfl⟩

/-- The components of a canonical path are the names that it is made of. -/
theorem Leads.pathComponents_eq {names : List (List Char)} {place : Place}
    (h : Leads t names place) :
    pathComponents (String.ofList (['/'].intercalate names)) = names.map .name :=
  pathComponents_intercalate fun name hname => (h.isFileName name hname).toIsPathName

/-- **Canonical paths are the same only if they are equal.** -/
theorem samePath_canonicalPath {p p' q q' : String} (h : t.canonicalPath p = .ok q)
    (h' : t.canonicalPath p' = .ok q') : samePath q q' = true ↔ q = q' := by
  obtain ⟨names, place, hplace, hnames, rfl⟩ := canonicalPath_eq_ok_iff.mp h
  obtain ⟨names', place', hplace', hnames', rfl⟩ := canonicalPath_eq_ok_iff.mp h'
  rw [samePath, beq_iff_eq, hnames.pathComponents_eq, hnames'.pathComponents_eq]
  constructor
  · intro heq
    rw [(List.map_inj_right fun _ _ => PathComponent.name.inj).mp heq]
  · intro heq
    rw [hnames.intercalate_inj hnames' (String.ofList_injective heq)]

end FileTree

end LoopFree
