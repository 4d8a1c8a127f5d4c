/-
Which events concern a file.

Who watches a file wants every event that may have changed it, and no other one.  An event is told
by paths, and the watched file is one, so this is a statement about paths: an event that concerns
a path happened to what the path leads to (`resolve_eq_of_concerns`), and among the events in the
directory of a file those that concern it are the ones that tell of its name
(`concerns_entry_iff`).
-/
import LoopFree.Watch
import LoopFree.Proofs.Files.Following

namespace LoopFree.ChangeEvent

/-! ### Events and paths

How a path is spelled does not matter, neither the path of the event nor that of the file.
-/

private theorem concerns_iff {e : ChangeEvent} {target : String} :
    e.concerns target = true ↔
      e.kind.altersContent = true ∧ ∃ p ∈ e.paths, samePath p target = true := by
  rw [concerns, Bool.and_eq_true, List.any_eq_true]

/-- A file is watched as well by any path that is the same. -/
theorem concerns_congr {target target' : String} (h : samePath target target' = true)
    (e : ChangeEvent) : e.concerns target = e.concerns target' := by
  have hcomponents : pathComponents target = pathComponents target' := beq_iff_eq.mp h
  have hsame : (samePath · target) = (samePath · target') := by
    funext p
    rw [samePath, samePath, hcomponents]
  rw [concerns, concerns, hsame]

/-- **An event that concerns a file happened to it**, in whatever tree. -/
theorem resolve_eq_of_concerns {e : ChangeEvent} {target : String} (h : e.concerns target = true) :
    ∃ p ∈ e.paths, ∀ (t : FileTree) (x y : Place),
      t.resolve p = .ok x → t.resolve target = .ok y → x = y := by
  obtain ⟨-, p, hp, hsame⟩ := concerns_iff.mp h
  exact ⟨p, hp, fun t x y => FileTree.resolve_congr hsame⟩

/-! ### Events in a directory

The directory of a file is watched in its place, so there is an event for each of its neighbours
too, and none of them may count as the file.  That the entries are there is not asked for: an
event may tell of one that has gone since.
-/

/-- The path of an entry of a directory. -/
def entryPath (directory : List (List Char)) (entry : List Char) : String :=
  String.ofList (['/'].intercalate (directory ++ [entry]))

/-- Entries of a directory with different names have different paths. -/
theorem samePath_entryPath {directory : List (List Char)} {entry entry' : List Char}
    (hdirectory : ∀ s ∈ directory, IsPathName s) (hentry : IsPathName entry)
    (hentry' : IsPathName entry') :
    samePath (entryPath directory entry) (entryPath directory entry') = true
      ↔ entry = entry' := by
  have hnames : ∀ {s : List Char}, IsPathName s → ∀ s' ∈ directory ++ [s], IsPathName s' := by
    intro s hs s' hmem
    rcases List.mem_append.mp hmem with hmem | hmem
    · exact hdirectory s' hmem
    · obtain rfl := List.mem_singleton.mp hmem
      exact hs
  rw [samePath, beq_iff_eq, entryPath, entryPath, pathComponents_intercalate (hnames hentry),
    pathComponents_intercalate (hnames hentry'),
    List.map_inj_right fun _ _ => PathComponent.name.inj, List.append_cancel_left_eq,
    List.singleton_inj]

/-- **In the directory of a file, the events that concern the file are those that may alter
content and tell of its name.** -/
theorem concerns_entry_iff {directory entries : List (List Char)} {entry : List Char}
    (hdirectory : ∀ s ∈ directory, IsPathName s) (hentry : IsPathName entry)
    (hentries : ∀ s ∈ entries, IsPathName s) (kind : ChangeKind) :
    (ChangeEvent.mk kind (entries.map (entryPath directory))).concerns
        (entryPath directory entry) = true
      ↔ kind.altersContent = true ∧ entry ∈ entries := by
  rw [concerns_iff]
  refine and_congr_right fun _ => ?_
  constructor
  · rintro ⟨p, hp, hsame⟩
    obtain ⟨s, hs, rfl⟩ := List.mem_map.mp hp
    rwa [← (samePath_entryPath hdirectory (hentries s hs) hentry).mp hsame]
  · intro hmem
    exact ⟨entryPath directory entry, List.mem_map_of_mem hmem,
      (samePath_entryPath hdirectory hentry hentry).mpr rfl⟩

/-- An editor that saves a file by giving its name to another one is told of by both names. -/
example :
    (ChangeEvent.mk .rename ["src/.sum.simpl.swp", "src/sum.simpl"]).concerns "src/sum.simpl" = true
      ∧ (ChangeEvent.mk .rename ["src/.sum.simpl.swp"]).concerns "src/sum.simpl" = false := by
  decide

/-! ### Looking twice

Who is told of no events looks at the file again and again.  That counts as an event too, and the
program asks of it what it would ask of any other one.
-/

/-- **What happened between two looks at a file concerns the file exactly if its content is
another one.** -/
theorem between_concerns_iff {path : String} {before after : Option (List UInt8)} :
    (between path before after).concerns path = true ↔ after ≠ before := by
  have hself : samePath path path = true := beq_self_eq_true (pathComponents path)
  rw [concerns_iff, between]
  by_cases heq : after = before
  · rw [if_pos heq]
    exact ⟨fun h => absurd h.1 Bool.false_ne_true, fun h => absurd heq h⟩
  · rw [if_neg heq]
    exact ⟨fun _ => heq, fun _ => ⟨rfl, path, List.mem_singleton_self path, hself⟩⟩

end LoopFree.ChangeEvent
