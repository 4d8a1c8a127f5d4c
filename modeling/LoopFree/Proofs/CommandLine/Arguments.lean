/-
What the arguments of a command line can say.

There are many ways to ask for one thing on a command line, and `Options.arguments` is the plain
one.  It is read back (`readArguments_arguments`), so whatever the options are that somebody wants,
there are arguments for them, with two exceptions that no spelling makes good
(`exists_readArguments_iff`): logging is asked for no more often than is counted, and a path is not
empty.
-/
import LoopFree.CommandLine.Report
import LoopFree.CommandLine.Arguments

namespace LoopFree.CommandLine

/-! ### Choices of colour

A name may be typed in capitals, and nothing else is forgiven.
-/

/-- A choice is read from its name, in small letters or in capital ones, and from nothing else. -/
theorem ColorChoice.ofString?_eq_some_iff {s : String} {c : ColorChoice} :
    ofString? s = some c ↔ s.toList.map Char.toLower = c.name.toList := by
  constructor
  · intro h
    have hname := List.find?_some h
    exact (beq_iff_eq.mp hname).symm
  · intro h
    rw [ofString?, h]
    cases c <;> rfl

/-! ### What is understood

There are many ways for arguments to be refused, and none of them matters here.  `Yields` passes
over them, and then what a single argument keeps is kept by all of them, in a level and over both
levels.
-/

/-- Where the arguments are understood, what they come to has the property. -/
def Yields {α : Type} (x : Except Usage α) (P : α → Prop) : Prop :=
  ∀ ⦃a : α⦄, x = .ok a → P a

namespace Yields

variable {α β : Type} {P : α → Prop} {Q : β → Prop}

theorem ok {a : α} (h : P a) : Yields (.ok a) P := by
  rintro _ ⟨⟩
  exact h

theorem error {usage : Usage} : Yields (.error usage) P := by
  rintro _ ⟨⟩

theorem bind {x : Except Usage α} {f : α → Except Usage β} (hx : Yields x P)
    (hf : ∀ a, P a → Yields (f a) Q) : Yields (x >>= f) Q := by
  cases x with
  | error usage => exact error
  | ok a => exact hf a (hx rfl)

/-- What every step keeps is kept to the end. -/
theorem foldlM {step : α → β → Except Usage α} (hstep : ∀ a b, P a → Yields (step a b) P)
    (bs : List β) : ∀ {a : α}, P a → Yields (bs.foldlM step a) P := by
  induction bs with
  | nil => exact ok
  | cons b rest ih =>
      intro a h
      rw [List.foldlM_cons]
      exact bind (hstep a b h) fun _ => ih

end Yields

namespace Given

/-- What arguments can come to. -/
structure Fits (g : Given) : Prop where
  verbosity : g.verbosity ≤ maxVerbosity
  path : g.path ≠ some ""

variable {g : Given}

private theorem fits_nothing : nothing.Fits :=
  ⟨Nat.zero_le _, nofun⟩

private theorem Fits.setColor (h : g.Fits) (value : String) : Yields (g.setColor value) Fits := by
  unfold Given.setColor
  split
  · exact .error
  · exact .ok ⟨h.verbosity, h.path⟩
  · exact .error

private theorem Fits.settle (h : g.Fits) : Yields g.settle Fits := by
  have hsettled : Fits { g with pending := .none } := ⟨h.verbosity, h.path⟩
  unfold Given.settle
  split
  · exact .ok hsettled
  · exact .error
  · exact hsettled.setColor _
  · exact .error
  · rename_i p hp hpending
    exact .ok ⟨h.verbosity, fun heq => hp (Option.some.inj heq)⟩

private theorem Fits.takeFlag (h : g.Fits) (o : OptionName) : Yields (g.takeFlag o) Fits := by
  unfold Given.takeFlag
  split
  · exact .ok ⟨h.verbosity, h.path⟩
  · exact .ok ⟨Nat.min_le_right _ _, h.path⟩
  · split
    · exact .error
    · exact .ok ⟨h.verbosity, h.path⟩
  · split
    · exact .error
    · exact .ok ⟨h.verbosity, h.path⟩
  · exact .error
  · exact .error

private theorem Fits.takeLong (h : g.Fits) (level : Level) (name : String) (value : Option String) :
    Yields (g.takeLong level name value) Fits := by
  unfold Given.takeLong
  split
  · exact .error
  · exact .bind h.settle fun _ hg => hg.setColor _
  · exact .error
  · exact .bind h.settle fun _ hg => hg.takeFlag _

private theorem Fits.takeShort (level : Level) (letters : List Char) :
    ∀ {g : Given}, g.Fits → Yields (takeShort level letters g) Fits := by
  induction letters with
  | nil => exact .ok
  | cons letter rest ih =>
      intro g h
      unfold Given.takeShort
      split
      · exact .error
      · exact .bind h.settle fun _ hg => .bind (hg.takeFlag _) fun _ => ih

private theorem Fits.takePath (h : g.Fits) (level : Level) (arg : String) :
    Yields (g.takePath level arg) Fits := by
  unfold Given.takePath
  split
  · split <;> exact .error
  all_goals
    split
    · exact .error
    · exact .bind h.settle fun _ hg => .ok ⟨hg.verbosity, hg.path⟩

private theorem Fits.take (h : g.Fits) (level : Level) (arg : String) :
    Yields (g.take level arg) Fits := by
  unfold Given.take
  split
  · exact h.takePath level arg
  · split
    · exact .ok ⟨h.verbosity, h.path⟩
    · exact h.takeLong level _ _
    · exact .takeShort level _ h
    · split
      · exact .ok ⟨h.verbosity, h.path⟩
      · exact h.takePath level arg

private theorem Fits.takeAll (h : g.Fits) (level : Level) (args : List String) :
    Yields (g.takeAll level args) Fits :=
  .bind (.foldlM (fun _ arg hg => hg.take level arg) args h) fun _ hg => hg.settle

end Given

/-- What options can come to. -/
structure Options.Fits (o : Options) : Prop where
  verbosity : o.verbosity ≤ Given.maxVerbosity
  path : o.command.path ≠ ""

private theorem commandAfter_fits {args : List String} {level : Level}
    {make : Given → String → Command} (hmake : ∀ g p, (make g p).path = p) :
    Yields (commandAfter args level make) fun found => found.1.Fits ∧ found.2.path ≠ "" := by
  refine .bind (Given.fits_nothing.takeAll level args) fun g hg => ?_
  split
  · rename_i p hp
    refine .ok ⟨hg, ?_⟩
    rw [hmake]
    rintro rfl
    exact hg.path hp
  · exact .error

private theorem fits_combine {before after : Given} {command : Command} (hbefore : before.Fits)
    (hafter : after.Fits) (hcommand : command.path ≠ "") :
    (combine before after command).Fits := by
  refine ⟨?_, hcommand⟩
  show (if after.verbosity = 0 then before.verbosity else after.verbosity) ≤ _
  split
  · exact hbefore.verbosity
  · exact hafter.verbosity

private theorem readFrom_fits (args : List String) :
    ∀ {g : Given}, g.Fits → Yields (readFrom g args) Options.Fits := by
  induction args with
  | nil =>
      intro g h
      refine .bind h.settle fun g hg => ?_
      split <;> exact .error
  | cons arg rest ih =>
      intro g h
      have hfollow : ∀ (level : Level) {make : Given → String → Command},
          (∀ g p, (make g p).path = p) →
            Yields (commandAfter rest level make >>= fun found =>
              g.settle >>= fun before => .ok (combine before found.1 found.2)) Options.Fits := by
        intro level make hmake
        refine .bind (commandAfter_fits hmake) fun found hfound => ?_
        exact .bind h.settle fun before hbefore => .ok (fits_combine hbefore hfound.1 hfound.2)
      unfold readFrom
      split
      · exact .bind (h.take .top arg) fun _ => ih
      · split
        · exact .error
        · exact hfollow .tokens fun _ _ => rfl
        · exact hfollow .run fun _ _ => rfl
        · exact .bind (h.take .top arg) fun _ => ih

/-! ### Plain spellings

The choice of colour is spelled out even where it is the usual one, every request for more logging
has an argument to itself, and the path stands behind `--`, so that it may look like anything.
-/

/-- The plain way to ask for a command. -/
def Command.arguments : Command → List String
  | tokens p => ["tokens", "--", p]
  | run p watch legacySubtraction =>
      "run" :: ((if watch then ["--watch"] else [])
        ++ ((if legacySubtraction then ["--legacy-subtraction"] else []) ++ ["--", p]))

/-- The plain way to ask for options. -/
def Options.arguments (o : Options) : List String :=
  ("--color=" ++ o.color.name) :: (List.replicate o.verbosity "-v" ++ o.command.arguments)

private theorem readFrom_take {g : Given} {arg : String} (rest : List String)
    (hhelp : arg ≠ "help") (htokens : arg ≠ "tokens") (hrun : arg ≠ "run") :
    readFrom g (arg :: rest) = (g.take .top arg >>= fun g => readFrom g rest) := by
  rw [readFrom]
  · simp only [ite_self]
  · exact hhelp
  · exact htokens
  · exact hrun

/-- What has been met before the command: a choice of colour and requests for more logging. -/
private def Given.before (color : ColorChoice) (verbosity : Nat) : Given :=
  { Given.nothing with color := color, verbosity := verbosity }

private theorem readFrom_color (color : ColorChoice) (rest : List String) :
    readFrom .nothing (("--color=" ++ color.name) :: rest) = readFrom (.before color 0) rest := by
  have htake : Given.nothing.take .top ("--color=" ++ color.name) = .ok (.before color 0) := by
    cases color <;> rfl
  rw [readFrom_take rest (by cases color <;> decide) (by cases color <;> decide)
    (by cases color <;> decide), htake]
  rfl

private theorem readFrom_verbose (color : ColorChoice) (rest : List String) (n : Nat) :
    ∀ {verbosity : Nat}, verbosity + n ≤ Given.maxVerbosity →
      readFrom (.before color verbosity) (List.replicate n "-v" ++ rest)
        = readFrom (.before color (verbosity + n)) rest := by
  induction n with
  | zero => exact fun _ => rfl
  | succ n ih =>
      intro verbosity hle
      have htake : (Given.before color verbosity).take .top "-v"
          = .ok (.before color (min (verbosity + 1) Given.maxVerbosity)) := rfl
      rw [List.replicate_succ, List.cons_append,
        readFrom_take _ (by decide) (by decide) (by decide), htake, Nat.min_eq_left (by omega)]
      show readFrom (.before color (verbosity + 1)) _ = _
      rw [ih (by omega), Nat.add_assoc, Nat.add_comm 1 n]

private theorem settle_path {g : Given} {p : String} (hp : p ≠ "")
    (hpending : g.pending = .path p) :
    g.settle = .ok { g with pending := .none, path := p } := by
  unfold Given.settle
  split <;> rename_i heq <;> cases hpending.symm.trans heq
  · exact absurd rfl hp
  · rfl

/-- A command is put together with what stands before it. -/
private theorem readFrom_tokens (color : ColorChoice) (verbosity : Nat) (rest : List String) :
    readFrom (.before color verbosity) ("tokens" :: rest)
      = commandAfter rest .tokens (fun _ p => .tokens p) >>= fun found =>
          .ok (combine (.before color verbosity) found.1 found.2) :=
  rfl

private theorem readFrom_run (color : ColorChoice) (verbosity : Nat) (rest : List String) :
    readFrom (.before color verbosity) ("run" :: rest)
      = commandAfter rest .run (fun after p => .run p after.watch after.legacySubtraction)
          >>= fun found => .ok (combine (.before color verbosity) found.1 found.2) :=
  rfl

private theorem readFrom_command {color : ColorChoice} {verbosity : Nat} {c : Command}
    (hpath : c.path ≠ "") :
    readFrom (.before color verbosity) c.arguments = .ok ⟨color, verbosity, c⟩ := by
  cases c with
  | tokens p =>
      have hafter : Given.nothing.takeAll .tokens ["--", p]
          = .ok { Given.nothing with onlyPaths := true, path := p } := settle_path hpath rfl
      rw [Command.arguments, readFrom_tokens, commandAfter, hafter]
      rfl
  | run p watch legacySubtraction =>
      have hafter : Given.nothing.takeAll .run ((if watch then ["--watch"] else [])
            ++ ((if legacySubtraction then ["--legacy-subtraction"] else []) ++ ["--", p]))
          = .ok { Given.nothing with watch := watch, legacySubtraction := legacySubtraction,
                                     onlyPaths := true, path := p } := by
        cases watch <;> cases legacySubtraction <;> exact settle_path hpath rfl
      rw [Command.arguments, readFrom_run, commandAfter, hafter]
      rfl

/-- **The plain spelling of options is read back.** -/
theorem readArguments_arguments {o : Options} (h : o.Fits) :
    readArguments o.arguments = .ok o := by
  have hverbosity : 0 + o.verbosity ≤ Given.maxVerbosity := by
    rw [Nat.zero_add]
    exact h.verbosity
  rw [readArguments, Options.arguments, readFrom_color, readFrom_verbose _ _ _ hverbosity,
    Nat.zero_add, readFrom_command h.path]

/-- **The options that there are arguments for are those that fit.** -/
theorem exists_readArguments_iff {o : Options} :
    (∃ args, readArguments args = .ok o) ↔ o.Fits := by
  constructor
  · rintro ⟨args, h⟩
    exact readFrom_fits args Given.fits_nothing h
  · intro h
    exact ⟨o.arguments, readArguments_arguments h⟩

end LoopFree.CommandLine
