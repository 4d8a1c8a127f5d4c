/-
Where a parser stops.

A parser that fails has read the start of something it was looking for, and it blames the
very next token: whatever stands behind that token, the parser fails there with the same
error.  One token is not quite enough to look at, since a name opens a statement only in
front of an assignment sign; so a name is looked at together with the token behind it.

`Course` says this of one run of a parser, and of a run that succeeds that it looks no
further either.  `Prompt` says it of every run.  Each way of putting parsers together
keeps it: where the second parser fails, what the first has read comes in front, and where
the first fails, something can always be added for the second.

The tokens may have been cut off by a failure.  A run with the failure is compared with runs
without one, and the two differ at the end of the tokens only.
-/
import LoopFree.Proofs.Syntax.Completeness
import LoopFree.Proofs.Syntax.Soundness

namespace LoopFree.Parser

open Grammar

/-! ### Runs of a parser

Stopping promptly means two things.  What was read can be completed, and for that it is enough to
give one completion.  And the next token is to blame, whatever may stand behind it.
-/

/-- The tokens are the start of something of which `G` holds. -/
def Begins {α : Type} (G : List Lexeme → α → Prop) (ls : List Lexeme) : Prop :=
  ∃ more x, G (ls ++ more) x

/-- The two lists look the same to a parser: they start with the same token, and if that is a
name, the tokens behind it are the same as well, or a failure was what stood there. -/
def SameStart (cut : Option LexError) (ts ts' : List Lexeme) : Prop :=
  ts'.head? = ts.head? ∧ ∀ l rest x, ts = l :: rest → l.token = .identifier x →
    (rest = [] ∧ cut ≠ none) ∨ ts'.tail.head? = rest.head?

/-- The error is about the first of these tokens, or about the end if there is none. -/
inductive Blames (cut : Option LexError) : ParseError → List Lexeme → Prop
  | ended (what : Expectation) : Blames cut (endError cut what) []
  | expected (what : Expectation) (l : Lexeme) (rest : List Lexeme) :
      Blames cut (.expected what l.token l.position) (l :: rest)
  | unexpected (l : Lexeme) (rest : List Lexeme) :
      Blames cut (.unexpectedToken l.token l.position) (l :: rest)
  | outOfRange (digits : String) (p : Position) (rest : List Lexeme) :
      Blames cut (.numberOutOfRange digits p) (⟨.integer digits, p⟩ :: rest)
  | tooDeep (l : Lexeme) (rest : List Lexeme) : Blames cut (.tooDeep l.position) (l :: rest)

/-- What a run with the failure `cut` has come to, where `p` is the parser without one.  Whether
it succeeds or fails, `p` does the same on all tokens that look the same from there; and where
it fails, the tokens it got over satisfy `B`. -/
inductive Course {α : Type} (p : Parser α) (B : List Lexeme → Prop) (cut : Option LexError) :
    List Lexeme → Except ParseError (α × List Lexeme) → Prop
  | read {used rest : List Lexeme} {x : α}
      (hsteady : ∀ ts, SameStart cut rest ts → p (used ++ ts) = .ok (x, ts)) :
      Course p B cut (used ++ rest) (.ok (x, rest))
  | stopped {pre post : List Lexeme} {why : ParseError} (hbegins : B pre)
      (hblames : Blames cut why post)
      (hsteady : post ≠ [] → ∀ ts, SameStart cut post ts → p (pre ++ ts) = .error why) :
      Course p B cut (pre ++ post) (.error why)

/-- The parser stops at the first token that cannot go on what it has read. -/
def Prompt {α : Type} (p : Option LexError → Parser α) (G : List Lexeme → α → Prop) : Prop :=
  ∀ cut ts, Course (p none) (Begins G) cut ts (p cut ts)

section Begins

variable {α : Type} {G : List Lexeme → α → Prop}

theorem Begins.of {ls : List Lexeme} {x : α} (h : G ls x) : Begins G ls :=
  ⟨[], x, by rw [List.append_nil]; exact h⟩

theorem Begins.map {β : Type} {H : List Lexeme → β → Prop} {us vs : List Lexeme}
    (h : Begins G us) (hGH : ∀ ls x, G (us ++ ls) x → ∃ y, H (vs ++ ls) y) : Begins H vs := by
  obtain ⟨more, x, hG⟩ := h
  obtain ⟨y, hH⟩ := hGH more x hG
  exact ⟨more, y, hH⟩

end Begins

/-- What is read by one parser and then by another, which may depend on what the first read. -/
def Then {α β : Type} (G : List Lexeme → α → Prop) (H : α → List Lexeme → β → Prop)
    (ls : List Lexeme) (y : β) : Prop :=
  ∃ us x vs, ls = us ++ vs ∧ G us x ∧ H x vs y

section Then

variable {α β : Type} {G : List Lexeme → α → Prop} {H : α → List Lexeme → β → Prop}

/-- Behind the start of the first part, something can always be added for the second. -/
theorem Begins.then {us : List Lexeme} (h : Begins G us) (hsome : ∀ x, Begins (H x) []) :
    Begins (Then G H) us := by
  obtain ⟨more, x, hG⟩ := h
  obtain ⟨more', y, hH⟩ := hsome x
  refine ⟨more ++ more', y, us ++ more, x, more', ?_, hG, hH⟩
  rw [List.append_assoc]

/-- Behind the first part, the start of the second. -/
theorem Begins.behind {us vs : List Lexeme} {x : α} (h : Begins (H x) vs) (hG : G us x) :
    Begins (Then G H) (us ++ vs) := by
  obtain ⟨more, y, hH⟩ := h
  refine ⟨more, y, us, x, vs ++ more, ?_, hG, hH⟩
  rw [List.append_assoc]

end Then

section SameStart

variable {cut : Option LexError} {ts ts' : List Lexeme}

/-- In front of both lists the same tokens may stand. -/
theorem SameStart.append (h : SameStart cut ts ts') (us : List Lexeme) :
    SameStart cut (us ++ ts) (us ++ ts') := by
  cases us with
  | nil => exact h
  | cons u us =>
      refine ⟨rfl, fun l rest x hl _ => Or.inr ?_⟩
      cases hl
      cases us with
      | nil => exact h.1
      | cons v us => rfl

theorem SameStart.cons {l : Lexeme} {rest : List Lexeme} (h : SameStart cut (l :: rest) ts') :
    ∃ rest', ts' = l :: rest' :=
  List.head?_eq_some_iff.mp h.1

/-- Behind a name the tokens look the same too, unless a failure stood there. -/
theorem SameStart.name {l : Lexeme} {rest : List Lexeme} {x : String}
    (h : SameStart cut (l :: rest) ts') (hl : l.token = .identifier x)
    (hrest : rest ≠ [] ∨ cut = none) : ∃ rest', ts' = l :: rest' ∧ rest'.head? = rest.head? := by
  obtain ⟨rest', rfl⟩ := h.cons
  refine ⟨rest', rfl, ?_⟩
  rcases h.2 l rest x rfl hl with ⟨hnil, hcut⟩ | hsame
  · exact (hrest.elim (fun h => h hnil) hcut).elim
  · exact hsame

end SameStart

/-! ### One parser after another

If the second parser fails, what the first one read is part of the good beginning.  If the first
one fails its own beginning is one for both, because something for the second can be added behind
it.
-/

section Course

variable {α β : Type} {p q : Parser α} {B C : List Lexeme → Prop} {cut : Option LexError}
  {ts rest used : List Lexeme}

/-- A run goes on behind tokens that have been read. -/
theorem Course.after {r : Except ParseError (α × List Lexeme)} (h : Course q B cut rest r)
    (hp : ∀ us, SameStart cut rest us → p (used ++ us) = q us)
    (hC : ∀ pre, B pre → C (used ++ pre)) : Course p C cut (used ++ rest) r := by
  cases h with
  | @read more rest x hsteady =>
      rw [← List.append_assoc]
      refine .read fun us hus => ?_
      rw [List.append_assoc, hp _ (hus.append more)]
      exact hsteady us hus
  | @stopped pre post why hbegins hblames hsteady =>
      rw [← List.append_assoc]
      refine .stopped (hC pre hbegins) hblames fun hne us hus => ?_
      rw [List.append_assoc, hp _ (hus.append pre)]
      exact hsteady hne us hus

theorem Course.mono {r : Except ParseError (α × List Lexeme)} (h : Course p B cut ts r)
    (hBC : ∀ pre, B pre → C pre) : Course p C cut ts r :=
  @Course.after _ _ _ _ _ _ _ [] _ h (fun _ _ => rfl) hBC

/-- A run of one parser and then of another, which may depend on what was read. -/
theorem Course.bind {G : List Lexeme → α → Prop} {H : α → List Lexeme → β → Prop}
    {j k : α → Parser β} {r : Except ParseError (α × List Lexeme)}
    (hp : Course p (Begins G) cut ts r)
    (hreads : ∀ x rest, r = .ok (x, rest) → ∃ used, used ++ rest = ts ∧ G used x)
    (hk : ∀ x rest, r = .ok (x, rest) → Course (k x) (Begins (H x)) cut rest (j x rest))
    (hsome : ∀ x, Begins (H x) []) :
    Course (fun ts => p ts >>= fun a => k a.1 a.2) (Begins (Then G H)) cut ts
      (r >>= fun a => j a.1 a.2) := by
  cases hp with
  | @read used rest x hsteady =>
      obtain ⟨used', hused, hG⟩ := hreads x rest rfl
      obtain rfl : used' = used := List.append_cancel_right hused
      refine (hk x rest rfl).after (fun us hus => ?_) fun pre hpre => hpre.behind hG
      show (p (used' ++ us) >>= fun a => k a.1 a.2) = k x us
      rw [hsteady us hus]
      rfl
  | @stopped pre post why hbegins hblames hsteady =>
      refine .stopped (hbegins.then hsome) hblames fun hne us hus => ?_
      show (p (pre ++ us) >>= fun a => k a.1 a.2) = .error why
      rw [hsteady hne us hus]
      rfl

/-- A run that fails at the first token. -/
theorem Course.stays {why : ParseError} (hB : B []) (hblames : Blames cut why ts)
    (hsteady : ∀ l rest, l ∈ ts.head? → SameStart cut ts (l :: rest) →
      p (l :: rest) = .error why) : Course p B cut ts (.error why) := by
  refine @Course.stopped _ _ _ _ [] ts why hB hblames fun hne us hus => ?_
  obtain ⟨l, rest, rfl⟩ := List.exists_cons_of_ne_nil hne
  obtain ⟨rest', rfl⟩ := hus.cons
  exact hsteady l rest' rfl hus

/-- A parser that has not found what it was looking for. -/
theorem Course.refused {what : Expectation} (hB : B [])
    (h : ∀ l rest, l ∈ ts.head? → p (l :: rest) = .error (.expected what l.token l.position)) :
    Course p B cut ts (refuse cut what ts) := by
  cases ts with
  | nil => exact .stays hB (.ended what) fun l rest hl => by cases hl
  | cons l rest =>
      refine .stays hB (.expected what l rest) fun k rest' hk _ => ?_
      cases hk
      exact h l rest' rfl

/-- A run that takes nothing. -/
theorem Course.waits {x : α} (hsteady : ∀ us, SameStart cut ts us → p us = .ok (x, us)) :
    Course p B cut ts (.ok (x, ts)) :=
  @Course.read _ _ _ _ [] ts x hsteady

/-- A run that takes the first token. -/
theorem Course.takes {l : Lexeme} {x : α} (h : ∀ us, p (l :: us) = .ok (x, us)) :
    Course p B cut (l :: rest) (.ok (x, rest)) :=
  @Course.read _ _ _ _ [l] rest x fun us _ => h us

end Course

section Prompt

variable {α β : Type} {p : Option LexError → Parser α} {G : List Lexeme → α → Prop}

theorem Prompt.mono {K : List Lexeme → α → Prop} (hp : Prompt p G)
    (hGK : ∀ {us : List Lexeme} {x : α}, G us x → K us x) : Prompt p K :=
  fun cut ts => (hp cut ts).mono fun _ hpre => hpre.map fun _ x hG => ⟨x, hGK hG⟩

theorem Prompt.bind {k : Option LexError → α → Parser β} {H : α → List Lexeme → β → Prop}
    (hp : Prompt p G) (hreads : ∀ cut, Reads (p cut) G)
    (hk : ∀ x, Prompt (fun cut => k cut x) (H x)) (hsome : ∀ x, Begins (H x) []) :
    Prompt (fun cut ts => p cut ts >>= fun a => k cut a.1 a.2) (Then G H) := by
  intro cut ts
  exact (hp cut ts).bind (fun x rest h => hreads cut h) (fun x rest _ => hk x cut rest) hsome

/-- The answer, to which no token belongs. -/
def IsAnswer (y : β) (us : List Lexeme) (z : β) : Prop :=
  us = [] ∧ z = y

theorem begins_isAnswer (y : β) : Begins (IsAnswer y) [] :=
  ⟨[], y, rfl, rfl⟩

theorem prompt_pure (y : β) : Prompt (fun _ ts => .ok (y, ts)) (IsAnswer y) := by
  intro cut ts
  exact .waits fun us _ => rfl

/-- The one token is of the kind. -/
def IsKind (k : TokenKind) (us : List Lexeme) (_ : Unit) : Prop :=
  ∃ l, us = [l] ∧ l.token.kind = k

theorem expect_reads {cut : Option LexError} (k : TokenKind) : Reads (expect cut k) (IsKind k) := by
  intro ts rest u h
  obtain ⟨l, hl, hk⟩ := expect_eq_ok h
  exact ⟨[l], hl, l, rfl, hk⟩

theorem begins_isKind {k : TokenKind} {t : Token} (h : t.kind = k) : Begins (IsKind k) [] :=
  ⟨[⟨t, ⟨1, 1⟩⟩], (), _, rfl, h⟩

theorem expect_prompt {k : TokenKind} {t : Token} (ht : t.kind = k) :
    Prompt (fun cut => expect cut k) (IsKind k) := by
  intro cut ts
  show Course (expect none k) _ cut ts (expect cut k ts)
  cases ts with
  | nil => exact .stays (begins_isKind ht) (.ended _) fun l rest hl => by cases hl
  | cons l rest =>
      by_cases hk : l.token.kind = k
      · rw [expect_eq hk]
        exact .takes fun us => expect_eq hk us
      · have hfails : ∀ (cut : Option LexError) (us : List Lexeme),
            expect cut k (l :: us) = .error (.expected (.token k) l.token l.position) := by
          intro cut us
          rw [expect, if_neg hk]
          rfl
        rw [hfails]
        refine .stays (begins_isKind ht) (.expected _ l rest) fun m us hm _ => ?_
        cases hm
        exact hfails none us

/-- A parser and then a token, which is left out of the answer. -/
theorem Prompt.followed {f : α → β} {k : TokenKind} {t : Token} (ht : t.kind = k)
    (hp : Prompt p G) (hreads : ∀ cut, Reads (p cut) G) :
    Prompt (fun cut ts => p cut ts >>= fun a => expect cut k a.2 >>= fun b => .ok (f a.1, b.2))
      (Then G fun x => Then (IsKind k) fun _ => IsAnswer (f x)) := by
  have hclose : ∀ x, Prompt (fun cut ts => expect cut k ts >>= fun b => .ok (f x, b.2))
      (Then (IsKind k) fun _ => IsAnswer (f x)) := fun x =>
    (expect_prompt ht).bind (fun cut => expect_reads k) (fun _ => prompt_pure (f x))
      fun _ => begins_isAnswer (f x)
  exact hp.bind hreads hclose fun x => (begins_isKind ht).then fun _ => begins_isAnswer (f x)

end Prompt

/-! ### Chains of operators -/

section Chains

variable {joins : Joins} {L P W : List Lexeme → Expr → Prop}

/-- What may come behind a left part of which `L` holds, to make a tree of which `W` holds. -/
def Extends (L W : List Lexeme → Expr → Prop) (left : Expr) (vs : List Lexeme) (e : Expr) : Prop :=
  ∀ us, L us left → W (us ++ vs) e

private theorem begins_extends (hone : ∀ {us : List Lexeme} {e : Expr}, L us e → W us e)
    (left : Expr) : Begins (Extends L W left) [] := by
  refine ⟨[], left, fun us hL => ?_⟩
  rw [List.append_nil, List.append_nil]
  exact hone hL

/-- A bound that is not met changes nothing. -/
theorem chainFrom_bound {part : Parser Expr} (hreads : Reads part P) {bound : List Lexeme} :
    ∀ {bound' ts : List Lexeme} {left : Expr}, ts.length ≤ bound.length →
      ts.length ≤ bound'.length →
      chainFrom joins part bound left ts = chainFrom joins part bound' left ts := by
  induction bound with
  | nil =>
      intro bound' ts left hts _
      have hends : Ends joins ts := by
        rw [List.length_eq_zero_iff.mp (Nat.le_zero.mp hts)]
        intro l hl
        cases hl
      rw [chainFrom_of_ends hends, chainFrom_of_ends hends]
  | cons b bound ih =>
      intro bound' ts left hts hts'
      by_cases hends : Ends joins ts
      · rw [chainFrom_of_ends hends, chainFrom_of_ends hends]
      · cases ts with
        | nil => exact absurd (fun l hl => by cases hl) hends
        | cons t ts =>
            obtain ⟨b', bound', rfl⟩ := List.exists_cons_of_length_pos (Nat.lt_of_lt_of_le
              (Nat.succ_pos _) hts')
            cases ht : joins t.token with
            | none => exact absurd (Ends.cons ht) hends
            | some join =>
                cases hpart : part ts with
                | error why => simp only [chainFrom, ht, hpart]; rfl
                | ok r =>
                    obtain ⟨right, mid⟩ := r
                    obtain ⟨used, hused, -⟩ := hreads hpart
                    have hmid := congrArg List.length hused
                    simp only [List.length_append, List.length_cons] at hmid hts hts'
                    rw [chainFrom_step ht hpart, chainFrom_step ht hpart]
                    exact ih (by omega) (by omega)

/-- The loop of a chain, which takes as many rounds as the tokens allow. -/
def loop (joins : Joins) (part : Parser Expr) (left : Expr) : Parser Expr :=
  fun ts => chainFrom joins part ts left ts

/-- A round of the loop: a part behind the operator, and the loop again. -/
theorem loop_step {part : Parser Expr} (hreads : Reads part P) {t : Lexeme} {left : Expr}
    {join : Expr → Expr → Expr} (ht : joins t.token = some join) (ts : List Lexeme) :
    loop joins part left (t :: ts)
      = part ts >>= fun a => loop joins part (join left a.1) a.2 := by
  unfold loop
  cases hpart : part ts with
  | error why => simp only [chainFrom, ht, hpart]; rfl
  | ok r =>
      obtain ⟨right, mid⟩ := r
      obtain ⟨used, hused, -⟩ := hreads hpart
      have hmid := congrArg List.length hused
      rw [List.length_append] at hmid
      rw [chainFrom_step ht hpart]
      exact chainFrom_bound hreads (by omega) (Nat.le_refl _)

/-- Where a chain ends it does so on all tokens that look the same. -/
theorem Ends.of_sameStart {cut : Option LexError} {ts us : List Lexeme} (h : Ends joins ts)
    (hus : SameStart cut ts us) : Ends joins us := by
  unfold Ends
  rw [hus.1]
  exact h

section Rounds

variable {part : Option LexError → Parser Expr} (hpart : Prompt part P)
  (hreads : ∀ cut, Reads (part cut) P)
include hpart hreads

/-- A run behind a left part stops there, or takes an operator and a part and goes on with what
the two were joined to. -/
theorem Course.round {p : Option LexError → Parser Expr} {k : Option LexError → Expr → Parser Expr}
    {H : Expr → List Lexeme → Expr → Prop} {left : Expr} {cut : Option LexError} {ts : List Lexeme}
    (hstop : ∀ cut ts, Ends joins ts → p cut ts = .ok (left, ts))
    (hstep : ∀ cut t ts join, joins t.token = some join →
      p cut (t :: ts) = part cut ts >>= fun a => k cut (join left a.1) a.2)
    (hnext : ∀ e mid, mid.length < ts.length →
      Course (k none e) (Begins (H e)) cut mid (k cut e mid))
    (hsome : ∀ e, Begins (H e) [])
    (hW : ∀ {us vs ws : List Lexeme} {t : Lexeme} {r e : Expr} {join : Expr → Expr → Expr},
      L us left → joins t.token = some join → P vs r → H (join left r) ws e →
      W (us ++ t :: (vs ++ ws)) e) :
    Course (p none) (Begins (Extends L W left)) cut ts (p cut ts) := by
  by_cases hends : Ends joins ts
  · rw [hstop cut ts hends]
    exact .waits fun us hus => hstop none us (hends.of_sameStart hus)
  · cases ts with
    | nil => exact absurd (fun l hl => by cases hl) hends
    | cons t ts =>
        cases ht : joins t.token with
        | none => exact absurd (Ends.cons ht) hends
        | some join =>
            have hround : Course (fun ts => part none ts >>= fun a => k none (join left a.1) a.2)
                (Begins (Then P fun right => H (join left right))) cut ts
                (part cut ts >>= fun a => k cut (join left a.1) a.2) := by
              refine (hpart cut ts).bind (j := fun right => k cut (join left right))
                (k := fun right => k none (join left right))
                (fun x rest h => hreads cut h) ?_ fun right => hsome _
              intro right mid h
              obtain ⟨used, hused, -⟩ := hreads cut h
              have hmid := congrArg List.length hused
              rw [List.length_append] at hmid
              exact hnext _ mid (by rw [List.length_cons]; omega)
            rw [hstep cut t ts join ht]
            refine @Course.after _ _ _ _ _ cut ts [t] _ hround
              (fun us _ => hstep none t us join ht) fun pre hpre => hpre.map ?_
            rintro vs e ⟨us, right, ws, hvs, hP, hmore⟩
            refine ⟨e, fun ls hleft => ?_⟩
            rw [List.singleton_append, List.cons_append, hvs]
            exact hW hleft ht hP hmore

private theorem loop_prompt
    (hjoin : ∀ {us vs : List Lexeme} {t : Lexeme} {l r : Expr} {join : Expr → Expr → Expr},
      W us l → joins t.token = some join → P vs r → W (us ++ t :: vs) (join l r)) (left : Expr) :
    Prompt (fun cut => loop joins (part cut) left) (Extends W W left) := by
  intro cut ts
  induction hn : ts.length using Nat.strongRecOn generalizing ts left with
  | ind n ih =>
      refine Course.round (k := fun cut => loop joins (part cut)) (H := Extends W W) hpart hreads
        (fun cut ts hends => chainFrom_of_ends hends ts left)
        (fun cut t ts join ht => loop_step (hreads cut) ht ts) ?_ (begins_extends id) ?_
      · intro e mid hmid
        exact ih mid.length (hn ▸ hmid) e mid rfl
      · intro us vs ws t r e join hl ht hP hmore
        have hall := hmore _ (hjoin hl ht hP)
        rw [List.append_assoc, List.cons_append] at hall
        exact hall

private theorem chain_prompt (hone : ∀ {us : List Lexeme} {e : Expr}, P us e → W us e)
    (hjoin : ∀ {us vs : List Lexeme} {t : Lexeme} {l r : Expr} {join : Expr → Expr → Expr},
      W us l → joins t.token = some join → P vs r → W (us ++ t :: vs) (join l r)) :
    Prompt (fun cut => chain joins (part cut)) W := by
  refine (hpart.bind (k := fun cut => loop joins (part cut)) hreads
    (loop_prompt (W := W) hpart hreads hjoin) (begins_extends id)).mono ?_
  rintro _ e ⟨us, x, vs, rfl, hP, hmore⟩
  exact hmore us (hone hP)

private theorem joinedOnce_prompt (hone : ∀ {us : List Lexeme} {e : Expr}, P us e → W us e)
    (hjoin : ∀ {us vs : List Lexeme} {t : Lexeme} {l r : Expr} {join : Expr → Expr → Expr},
      P us l → joins t.token = some join → P vs r → W (us ++ t :: vs) (join l r)) :
    Prompt (fun cut => joinedOnce joins (part cut)) W := by
  have honce : ∀ left, Prompt (fun cut ts => chainFrom joins (part cut) (ts.take 1) left ts)
      (Extends P W left) := by
    intro left cut ts
    refine Course.round (p := fun cut ts => chainFrom joins (part cut) (ts.take 1) left ts)
      (k := fun _ e ts => .ok (e, ts)) (H := IsAnswer) hpart hreads
      (fun cut ts hends => chainFrom_of_ends hends _ left) ?_ (fun e mid _ => prompt_pure e cut mid)
      begins_isAnswer ?_
    · intro cut t ts join ht
      simp only [List.take_succ_cons, List.take_zero, chainFrom, ht]
    · rintro us vs ws t r e join hl ht hP ⟨rfl, rfl⟩
      rw [List.append_nil]
      exact hjoin hl ht hP
  refine (hpart.bind (k := fun cut left ts => chainFrom joins (part cut) (ts.take 1) left ts) hreads
    honce (begins_extends hone)).mono ?_
  rintro _ e ⟨us, x, vs, rfl, hP, hmore⟩
  exact hmore us hP

end Rounds

end Chains

/-! ### Expressions -/

section Groups

variable {inner : Option LexError → Nat → Parser Expr} {c : Category}
  (hreads : ∀ cut room, Reads (inner cut room) (Within room c))
include hreads

private theorem group_reads (cut : Option LexError) (room : Nat) (p : Position) :
    Reads (group cut (inner cut) room p) (Grouped room c) := by
  cases room with
  | zero => exact noRoom_reads p
  | succ room => exact parenthesized_reads (hreads cut room) p

/-- A group behind the token that opens it, which is to blame where there is no room. -/
theorem group_course {c' : Category} {room : Nat} {p : Parser Expr} {l : Lexeme}
    (hl : l.token = .leftParen)
    (hinner : ∀ r < room, Prompt (fun cut => inner cut r) (Within r c))
    (hgroup : ∀ {d : Nat} {ts : List Token} {e : Expr}, Derives c d ts e →
      Derives c' (d + 1) (.leftParen :: (ts ++ [.rightParen])) e)
    (hsome : Begins (Within room c') [])
    (hp : ∀ us, p (l :: us) = group none (inner none) room l.position us)
    (cut : Option LexError) (rest : List Lexeme) :
    Course p (Begins (Within room c')) cut (l :: rest)
      (group cut (inner cut) room l.position rest) := by
  cases room with
  | zero =>
      refine .stays hsome (.tooDeep l rest) fun k us hk _ => ?_
      cases hk
      exact hp us
  | succ room =>
      have hclosed : Prompt (fun cut => parenthesized cut (inner cut room) l.position)
          (Grouped (room + 1) c) := by
        refine (Prompt.followed (f := id) (t := .rightParen) rfl
          (hinner room (Nat.lt_succ_self room)) fun cut => hreads cut room).mono ?_
        rintro _ _ ⟨us, e, _, rfl, hus, _, _, _, rfl, ⟨rp, rfl, hrp⟩, rfl, rfl⟩
        rw [List.append_nil]
        exact ⟨us, rp, rfl, Token.eq_of_kind_eq (u := .rightParen) rfl hrp, room, rfl, hus⟩
      refine @Course.after _ _ _ _ _ cut rest [l] _ (hclosed cut rest) (fun us _ => hp us) ?_
      exact fun pre hpre => hpre.map fun vs e h => ⟨e, h.within hl hgroup⟩

end Groups

theorem within_name (room : Nat) (x : String) (p : Position) :
    Within room .operand [⟨.identifier x, p⟩] (.var x) :=
  ⟨0, Nat.zero_le _, .name x, by simp [Token.InRange]⟩

private theorem begins_operand (room : Nat) : Begins (Within room .operand) [] :=
  ⟨_, _, within_name room "x" ⟨1, 1⟩⟩

private theorem begins_truth (room : Nat) : Begins (Within room .truth) [] :=
  ⟨[⟨.trueWord, ⟨1, 1⟩⟩], .bool true, 0, Nat.zero_le _, .trueWord, by simp [Token.InRange]⟩

theorem begins_condition (room : Nat) : Begins (Within room .condition) [] :=
  (begins_truth room).map fun _ e h => ⟨e, (h.mono .alone).mono .tested⟩

private theorem operand_prompt {room : Nat}
    (hsum : ∀ r < room, Prompt (fun cut => sum cut r) (Within r .sum)) :
    Prompt (fun cut => operand cut (group cut (sum cut) room)) (Within room .operand) := by
  intro cut ts
  show Course (operand none (group none (sum none) room)) _ cut ts _
  cases ts with
  | nil => exact .refused (begins_operand room) fun l rest hl => by cases hl
  | cons l rest =>
      obtain ⟨t, p⟩ := l
      cases t with
      | identifier x => exact .takes fun us => rfl
      | integer s =>
          cases hs : intOfLiteral? s with
          | some n =>
              simp only [operand, hs]
              exact .takes fun us => by simp only [operand, hs]
          | none =>
              simp only [operand, hs]
              refine .stays (begins_operand room) (.outOfRange s p rest) fun k us hk _ => ?_
              cases hk
              simp only [operand, hs]
      | float s => exact .takes fun us => rfl
      | leftParen =>
          exact group_course (fun cut room => sum_reads room) rfl hsum .sumGroup
            (begins_operand room) (fun us => rfl) cut rest
      | _ =>
          refine .refused (begins_operand room) fun k us hk => ?_
          cases hk
          rfl

private theorem truth_prompt {room : Nat}
    (hcondition : ∀ r < room, Prompt (fun cut => condition cut r) (Within r .condition)) :
    Prompt (fun cut => truth cut (group cut (condition cut) room)) (Within room .truth) := by
  intro cut ts
  show Course (truth none (group none (condition none) room)) _ cut ts _
  cases ts with
  | nil => exact .refused (begins_truth room) fun l rest hl => by cases hl
  | cons l rest =>
      obtain ⟨t, p⟩ := l
      cases t with
      | trueWord => exact .takes fun us => rfl
      | falseWord => exact .takes fun us => rfl
      | leftParen =>
          exact group_course (fun cut room => condition_reads room) rfl hcondition .conditionGroup
            (begins_truth room) (fun us => rfl) cut rest
      | _ =>
          refine .refused (begins_truth room) fun k us hk => ?_
          cases hk
          rfl

/-- **A sum stops at the first token that cannot go on it.** -/
theorem sum_prompt (room : Nat) : Prompt (fun cut => sum cut room) (Within room .sum) := by
  induction room using Nat.strongRecOn with
  | ind room ih =>
      have hgroups : ∀ (cut : Option LexError) (p : Position),
          Reads (group cut (sum cut) room p) (Grouped room .sum) :=
        fun cut => group_reads (fun cut room => sum_reads room) cut room
      have hproduct :
          Prompt (fun cut => chain productJoins (operand cut (group cut (sum cut) room)))
            (Within room .product) :=
        chain_prompt (operand_prompt ih) (fun cut => operand_reads (hgroups cut))
          (fun hp => hp.mono .factor) Within.product
      have hsum : Prompt (fun cut => sumOver cut (group cut (sum cut) room)) (Within room .sum) :=
        chain_prompt hproduct (fun cut => product_reads (hgroups cut)) (fun hp => hp.mono .term)
          Within.sum
      have heq : (fun cut => sum cut room) = fun cut => sumOver cut (group cut (sum cut) room) :=
        funext fun cut => sum_eq room
      rw [heq]
      exact hsum

/-- **A condition stops at the first token that cannot go on it.** -/
theorem condition_prompt (room : Nat) :
    Prompt (fun cut => condition cut room) (Within room .condition) := by
  induction room using Nat.strongRecOn with
  | ind room ih =>
      have hgroups : ∀ (cut : Option LexError) (p : Position),
          Reads (group cut (condition cut) room p) (Grouped room .condition) :=
        fun cut => group_reads (fun cut room => condition_reads room) cut room
      have htest : Prompt (fun cut => joinedOnce compareJoins
          (truth cut (group cut (condition cut) room))) (Within room .test) :=
        joinedOnce_prompt (truth_prompt ih) (fun cut => truth_reads (hgroups cut))
          (fun hp => hp.mono .alone) Within.test
      have hcondition : Prompt (fun cut => conditionOver cut (group cut (condition cut) room))
          (Within room .condition) :=
        chain_prompt htest (fun cut => test_reads (hgroups cut)) (fun hp => hp.mono .tested)
          Within.condition
      have heq : (fun cut => condition cut room)
          = fun cut => conditionOver cut (group cut (condition cut) room) :=
        funext fun cut => condition_eq room
      rw [heq]
      exact hcondition

/-- What a `print` shows stops at the first token that cannot go on it. -/
theorem shown_prompt (room : Nat) :
    Prompt (fun cut => joinedOnce compareJoins (sum cut room)) (Within room .shown) :=
  joinedOnce_prompt (sum_prompt room) (fun _ => sum_reads room) (fun hp => hp.mono .value)
    Within.shown

end LoopFree.Parser
