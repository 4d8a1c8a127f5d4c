/-
What a command reports.

A shell asks a command for its status, and a reader of the report for an error in words: the status
is zero exactly if there are no such words (`status_eq_zero_iff`), and exactly if the file could be
opened and all went well with what it holds (`perform_status_eq_zero_iff`).  What was written
before an error stays, and nothing is written where there is nothing to run.
-/
import LoopFree.CommandLine.Report
import LoopFree.Proofs.Run.Listing
import LoopFree.Proofs.Files.Following

namespace LoopFree.CommandLine

/-! ### Status, errors and colour

Every report is made in one place from what was written and perhaps an error.  So colour is a matter
of the line that tells of the error.
-/

private theorem Report.ofOutput_status_eq_zero_iff {colored : Bool} {stdout : ByteArray}
    {failure : Option String} : (ofOutput colored stdout failure).status = 0 ↔ failure = none := by
  cases failure with
  | none => exact ⟨fun _ => rfl, fun _ => rfl⟩
  | some message =>
      refine ⟨fun h => ?_, fun h => ?_⟩
      · cases h
      · cases h

/-- Only the line of an error depends on colour. -/
theorem Command.perform_eq_ofOutput (c : Command) (found : Except PathError Source) :
    ∃ stdout failure, ∀ colored, c.perform colored found = .ofOutput colored stdout failure := by
  cases found with
  | error why => exact ⟨.empty, some (c.cannotOpen why), fun colored => rfl⟩
  | ok source =>
      cases c with
      | tokens p => exact ⟨_, _, fun colored => rfl⟩
      | run p watch legacySubtraction => exact ⟨_, _, fun colored => rfl⟩

private theorem errorLine_ne_empty (colored : Bool) (message : String) :
    errorLine colored message ≠ "" := by
  intro h
  have hlist := congrArg String.toList h
  simp [errorLine] at hlist

/-- **There is an error in words exactly if the status is not zero**, and then the status is one. -/
theorem Command.status_eq_zero_iff (c : Command) (colored : Bool)
    (found : Except PathError Source) :
    ((c.perform colored found).status = 0 ↔ (c.perform colored found).stderr = "")
      ∧ (c.perform colored found).status ≤ 1 := by
  obtain ⟨stdout, failure, h⟩ := c.perform_eq_ofOutput found
  rw [h colored]
  cases failure with
  | none => exact ⟨⟨fun _ => rfl, fun _ => rfl⟩, Nat.zero_le 1⟩
  | some message =>
      refine ⟨⟨fun h => ?_, fun h => ?_⟩, Nat.le_refl 1⟩
      · cases h
      · exact absurd h (errorLine_ne_empty colored message)

/-! ### What went well

A listing goes well if there are tokens up to the end, and a run if there is a program and no
statement of it fails.  Writing cannot fail here, and so these are the only reasons for a status
that is not zero.
-/

/-- The source can be cut into tokens, or the program in it runs to its end. -/
def Command.Succeeds : Command → Source → Prop
  | tokens _, source => source.feed.cut = none
  | c@(run ..), source =>
      ∃ p, source.parse = .ok p ∧ (p.execute c.config ⟨.empty, .unlimited⟩).failure = none

/-- **The listing of a source is reported**, and the failure that it stops at. -/
theorem Command.perform_tokens (path : String) (colored : Bool) (source : Source) :
    (tokens path).perform colored (.ok source)
      = .ofOutput colored source.listing.text.toUTF8
          (source.listing.cut.map fun why => (Failure.lexical why).message) := by
  have hwritten := source.writeTokens_eq Sink.takesAll_unlimited
  have hempty : Sink.unlimited.written ++ source.listing.text.toUTF8
      = source.listing.text.toUTF8 := ByteArray.empty_append
  rw [perform, hwritten, hempty]
  show Report.ofOutput colored _ ((source.listing.cut.map ListingFailure.lexical).map _) = _
  rw [Option.map_map]
  rfl

/-- **The status is zero exactly if the file could be opened and all went well with it.** -/
theorem Command.perform_status_eq_zero_iff (c : Command) (colored : Bool)
    (found : Except PathError Source) :
    (c.perform colored found).status = 0 ↔ ∃ source, found = .ok source ∧ c.Succeeds source := by
  cases found with
  | error why =>
      refine ⟨fun h => ?_, fun ⟨source, h, _⟩ => ?_⟩
      · cases h
      · cases h
  | ok source =>
      have hfound : (∃ found, (.ok source : Except PathError Source) = .ok found
          ∧ c.Succeeds found) ↔ c.Succeeds source := by simp
      rw [hfound]
      cases c with
      | tokens path =>
          rw [perform_tokens, Report.ofOutput_status_eq_zero_iff, Option.map_eq_none_iff]
          rfl
      | run path watch legacySubtraction =>
          show (Report.ofOutput colored _ _).status = 0 ↔ _
          rw [Report.ofOutput_status_eq_zero_iff, Option.map_eq_none_iff]
          unfold Succeeds
          cases hparse : source.parse with
          | error why => simp [hparse]
          | ok p => simp [hparse]

/-- What can be run can be listed. -/
theorem Command.Succeeds.tokens {path path' : String} {watch legacySubtraction : Bool}
    {source : Source} (h : (run path watch legacySubtraction).Succeeds source) :
    (tokens path').Succeeds source := by
  obtain ⟨p, hp, -⟩ := h
  exact (Parser.program_reads hp).1

/-- **Nothing is written before a source has been read to its end as a program.** -/
theorem Command.perform_run_of_parse_error {source : Source} {why : ParseError}
    (h : source.parse = .error why) (path : String) (watch legacySubtraction colored : Bool) :
    (run path watch legacySubtraction).perform colored (.ok source)
      = .ofOutput colored .empty (some (Failure.ofParseError why).message) := by
  rw [perform, Source.run, h]
  rfl

/-! ### Finding and opening

A watched file is found first, for the sake of its directory, and then opened like any other one.
That is asking twice, but it asks for nothing more: what can be opened has been found.
-/

/-- Finding a file before it is opened does not change what is opened. -/
theorem Command.sourceIn_eq_ok_iff {c : Command} {t : FileTree} {source : Source} :
    c.sourceIn t = .ok source ↔ t.openSource c.path = .ok source := by
  unfold sourceIn
  split
  · constructor
    · intro h
      cases hplace : t.resolve c.path with
      | error why =>
          rw [hplace] at h
          cases h
      | ok place =>
          rw [hplace] at h
          exact h
    · intro h
      obtain ⟨-, place, hplace, -⟩ := FileTree.openSource_eq_ok_iff.mp h
      rw [hplace]
      exact h
  · exact Iff.rfl

/-- **What a command needs of the files.** -/
theorem Command.perform_sourceIn_status_eq_zero_iff (c : Command) (colored : Bool) (t : FileTree) :
    (c.perform colored (c.sourceIn t)).status = 0 ↔
      ∃ source, t.openSource c.path = .ok source ∧ c.Succeeds source := by
  rw [perform_status_eq_zero_iff]
  exact exists_congr fun source => and_congr_left fun _ => sourceIn_eq_ok_iff

end LoopFree.CommandLine
