/-
# Regular expressions as texts

What putting a regular expression between `^(?:` and `)$` means for a syntax that
is read from left to right with a stack of open groups.

* `Dialect` : the parts of a syntax that are left open, the pieces it cuts a text
  into and what they match;
* `Parses`, `IsExpression` : how the pieces build an expression;
* `Dialect.Documented` : the few pieces that the wrapping uses;
* `Dialect.wrapped_spans` : a text that is an expression by itself matches whole
  haystacks once it is wrapped.

A text that is no expression by itself can still become one between the two
halves of the wrapping, and nothing is said about it here.
-/
import Mathlib.Tactic.Common
import Mathlib.Data.Nat.Notation

namespace RegexSyntax

/-! ## Syntax -/

/-- A piece of a text: `flags` changes the flags of the rest of the group, and
`nothing` is a comment or ignored white space. -/
inductive Piece (Flags Atom Repetition : Type)
  | atom (a : Atom)
  | opened (inside : Flags)
  | closed
  | bar
  | repeated (r : Repetition)
  | flags (f : Flags)
  | nothing

/-- An expression. -/
inductive Expr (Atom Repetition : Type)
  | empty
  | atom (a : Atom)
  | group (e : Expr Atom Repetition)
  | repeated (r : Repetition) (e : Expr Atom Repetition)
  | concat (e₁ e₂ : Expr Atom Repetition)
  | alternate (e₁ e₂ : Expr Atom Repetition)

/-- A syntax.  `initial` are the flags at the start of a text that is compiled
with or without regard to case, and `next` cuts off the first piece of a text,
`none` where that is an error. -/
structure Dialect where
  Flags : Type
  Atom : Type
  Repetition : Type
  initial : Bool → Flags
  next : Flags → List Char → Option (Piece Flags Atom Repetition × List Char)
  /-- the atom matches the haystack from one position to another -/
  atomSpans : Atom → List Char → ℕ → ℕ → Prop
  /-- what a repetition makes of what its operand matches -/
  repeats : Repetition → (ℕ → ℕ → Prop) → ℕ → ℕ → Prop

variable (D : Dialect)

/-- The expression matches the haystack from one position to another. -/
def Dialect.spans (haystack : List Char) : Expr D.Atom D.Repetition → ℕ → ℕ → Prop
  | .empty, i, j => i = j
  | .atom a, i, j => D.atomSpans a haystack i j
  | .group e, i, j => spans haystack e i j
  | .repeated r e, i, j => D.repeats r (spans haystack e) i j
  | .concat e₁ e₂, i, j => ∃ k, spans haystack e₁ i k ∧ spans haystack e₂ k j
  | .alternate e₁ e₂, i, j => spans haystack e₁ i j ∨ spans haystack e₂ i j

/-- Some part of the haystack matches. -/
def Dialect.Matches (haystack : List Char) (e : Expr D.Atom D.Repetition) : Prop :=
  ∃ i j, i ≤ haystack.length ∧ D.spans haystack e i j

/-- An open group: its flags, the alternatives that are complete and the items of
the one that is being read. -/
structure Level where
  flags : D.Flags
  branches : List (Expr D.Atom D.Repetition) := []
  items : List (Expr D.Atom D.Repetition) := []

variable {D}

/-- The alternative that is being read. -/
def Level.branch (level : Level D) : Expr D.Atom D.Repetition :=
  level.items.foldr .concat .empty

/-- The expression of a group. -/
def Level.expr (level : Level D) : Expr D.Atom D.Repetition :=
  level.branches.foldr .alternate level.branch

/-- One more item. -/
def Level.add (level : Level D) (e : Expr D.Atom D.Repetition) : Level D :=
  { level with items := level.items ++ [e] }

/-- A piece on the stack of open groups, the innermost first.  A group that was
never opened cannot be closed, and a repetition needs an operand. -/
def step : List (Level D) → Piece D.Flags D.Atom D.Repetition → Option (List (Level D))
  | [], _ => none
  | top :: rest, .atom a => some (top.add (.atom a) :: rest)
  | top :: rest, .opened inside => some ({ flags := inside } :: top :: rest)
  | [_], .closed => none
  | top :: outer :: rest, .closed => some (outer.add (.group top.expr) :: rest)
  | top :: rest, .bar =>
    some ({ top with branches := top.branches ++ [top.branch], items := [] } :: rest)
  | top :: rest, .repeated r =>
    top.items.getLast?.map fun last =>
      { top with items := top.items.dropLast ++ [.repeated r last] } :: rest
  | top :: rest, .flags f => some ({ top with flags := f } :: rest)
  | top :: rest, .nothing => some (top :: rest)

/-- The text takes one stack to another, piece by piece. -/
inductive Parses : List (Level D) → List Char → List (Level D) → Prop
  | nil (stack : List (Level D)) : Parses stack [] stack
  | cons {top : Level D} {rest stack stack' : List (Level D)} {text left : List Char}
      {piece : Piece D.Flags D.Atom D.Repetition} (hnonempty : text ≠ [])
      (hnext : D.next top.flags text = some (piece, left))
      (hstep : step (top :: rest) piece = some stack) (hrest : Parses stack left stack') :
      Parses (top :: rest) text stack'

variable (D)

/-- The text is the expression: every group it opens is closed. -/
def Dialect.IsExpression (ignoreCase : Bool) (text : List Char) (e : Expr D.Atom D.Repetition) :
    Prop :=
  ∃ level : Level D, Parses [{ flags := D.initial ignoreCase }] text [level] ∧ level.expr = e

variable {D}

/-- The reading of a text of at most `n` pieces. -/
def readText : ℕ → List (Level D) → List Char → Option (List (Level D))
  | _, stack, [] => some stack
  | 0, _, _ => none
  | _, [], _ => none
  | n + 1, top :: rest, text =>
    match D.next top.flags text with
    | none => none
    | some (piece, left) => (step (top :: rest) piece).bind fun stack => readText n stack left

theorem readText_parses {n : ℕ} {stack stack' : List (Level D)} {text : List Char}
    (h : readText n stack text = some stack') : Parses stack text stack' := by
  induction n generalizing stack text with
  | zero =>
    rcases text with _ | ⟨c, text⟩
    · cases h
      exact .nil _
    · cases h
  | succ n ih =>
    rcases text with _ | ⟨c, text⟩
    · cases h
      exact .nil _
    · rcases stack with _ | ⟨top, rest⟩
      · cases h
      · rw [readText] at h
        · split at h
          · cases h
          · rename_i piece left hnext
            obtain ⟨next, hstep, hrest⟩ := Option.bind_eq_some_iff.mp h
            exact .cons (by simp) hnext hstep (ih hrest)
        · simp

variable (D)

/-! ## The wrapping -/

/-- The text between `^(?:` and `)$`. -/
def wrapped (text : List Char) : List Char := '^' :: '(' :: '?' :: ':' :: (text ++ [')', '$'])

/-- What is documented of the pieces of the wrapping.  A piece reaches as far with
`)$` behind its text as without, or it is a comment that swallows both. -/
structure Dialect.Documented : Prop where
  caret : ∀ ignoreCase rest, ∃ a, D.next (D.initial ignoreCase) ('^' :: rest) =
    some (.atom a, rest) ∧ ∀ haystack i j, D.atomSpans a haystack i j ↔ i = 0 ∧ j = 0
  group : ∀ flags rest, D.next flags ('(' :: '?' :: ':' :: rest) = some (.opened flags, rest)
  close : ∀ flags, D.next flags [')', '$'] = some (.closed, ['$'])
  dollar : ∀ ignoreCase, ∃ a, D.next (D.initial ignoreCase) ['$'] = some (.atom a, []) ∧
    ∀ haystack i j, D.atomSpans a haystack i j ↔ i = haystack.length ∧ j = haystack.length
  behind : ∀ flags text piece rest, D.next flags text = some (piece, rest) →
    D.next flags (text ++ [')', '$']) = some (piece, rest ++ [')', '$']) ∨
      rest = [] ∧ piece = .nothing ∧ D.next flags (text ++ [')', '$']) = some (.nothing, [])

variable {D}

/-- A piece does not look below the groups it works on. -/
theorem step_append {stack stack' : List (Level D)} {piece : Piece D.Flags D.Atom D.Repetition}
    (h : step stack piece = some stack') (base : List (Level D)) :
    step (stack ++ base) piece = some (stack' ++ base) := by
  rcases stack with _ | ⟨top, rest⟩
  · cases h
  · rcases piece with a | inside | _ | _ | r | f | _
    · cases h
      rfl
    · cases h
      rfl
    · rcases rest with _ | ⟨outer, rest⟩
      · cases h
      · cases h
        rfl
    · cases h
      rfl
    · obtain ⟨last, hlast, rfl⟩ := Option.map_eq_some_iff.mp h
      show top.items.getLast?.map _ = _
      rw [hlast]
      rfl
    · cases h
      rfl
    · cases h
      rfl

/-- A text has one reading. -/
theorem Parses.unique {stack stack₁ stack₂ : List (Level D)} {text : List Char}
    (h₁ : Parses stack text stack₁) (h₂ : Parses stack text stack₂) : stack₁ = stack₂ := by
  induction h₁ with
  | nil =>
    rcases h₂ with _ | ⟨hnonempty, -, -, -⟩
    · rfl
    · exact absurd rfl hnonempty
  | cons hnonempty hnext hstep _ ih =>
    rcases h₂ with _ | ⟨-, hnext', hstep', hrest'⟩
    · exact absurd rfl hnonempty
    · cases hnext.symm.trans hnext'
      cases hstep.symm.trans hstep'
      exact ih hrest'

/-- Inside a group and in front of `)$`, a text is read as it is by itself, unless
a comment at its end swallows the two. -/
theorem Parses.behind (hdoc : D.Documented) {stack stack' : List (Level D)} {text : List Char}
    (h : Parses stack text stack') (base : List (Level D)) :
    (∀ final, Parses (stack' ++ base) [')', '$'] final →
      Parses (stack ++ base) (text ++ [')', '$']) final) ∨
    Parses (stack ++ base) (text ++ [')', '$']) (stack' ++ base) := by
  induction h with
  | nil stack => exact .inl fun final hfinal => hfinal
  | @cons top rest stack stack' text left piece hnonempty hnext hstep hrest ih =>
    have hstep' := step_append hstep base
    have hne : text ++ [')', '$'] ≠ [] := by simp
    rcases hdoc.behind top.flags text piece left hnext with hbehind | ⟨rfl, rfl, hswallowed⟩
    · rcases ih with ih | ih
      · exact .inl fun final hfinal => .cons hne hbehind hstep' (ih final hfinal)
      · exact .inr (.cons hne hbehind hstep' ih)
    · -- the comment is the last piece of the text
      rcases hrest with _ | ⟨hnil, -, -, -⟩
      · exact .inr (.cons hne hswallowed hstep' (.nil _))
      · exact absurd rfl hnil

/-- **The wrapping anchors expressions.**  Where a text is an expression by itself
and between `^(?:` and `)$`, the latter matches a haystack exactly when the former
matches the whole of it. -/
theorem Dialect.wrapped_spans (hdoc : D.Documented) {ignoreCase : Bool} {text : List Char}
    {e w : Expr D.Atom D.Repetition} (he : D.IsExpression ignoreCase text e)
    (hw : D.IsExpression ignoreCase (wrapped text) w) (haystack : List Char) (i j : ℕ) :
    D.spans haystack w i j ↔
      i = 0 ∧ j = haystack.length ∧ D.spans haystack e 0 haystack.length := by
  obtain ⟨level, hlevel, rfl⟩ := he
  obtain ⟨final, hfinal, rfl⟩ := hw
  obtain ⟨start, hstart, hstartSpans⟩ := hdoc.caret ignoreCase ('(' :: '?' :: ':' ::
    (text ++ [')', '$']))
  obtain ⟨stop, hstop, hstopSpans⟩ := hdoc.dollar ignoreCase
  -- what is open while the text is read
  have hbehind := hlevel.behind hdoc
    [({ flags := D.initial ignoreCase } : Level D).add (.atom start)]
  have hopens (stack : List (Level D))
      (h : Parses ([{ flags := D.initial ignoreCase }] ++
        [({ flags := D.initial ignoreCase } : Level D).add (.atom start)])
        (text ++ [')', '$']) stack) :
      Parses [{ flags := D.initial ignoreCase }] (wrapped text) stack :=
    .cons (by simp [wrapped]) hstart rfl (.cons (by simp) (hdoc.group _ _) rfl h)
  have hclosing : Parses ([level] ++
      [({ flags := D.initial ignoreCase } : Level D).add (.atom start)]) [')', '$']
      [((({ flags := D.initial ignoreCase } : Level D).add (.atom start)).add
        (.group level.expr)).add (.atom stop)] :=
    .cons (by simp) (hdoc.close _) rfl (.cons (by simp) hstop rfl (.nil _))
  rcases hbehind with hread | hswallowed
  · have hsame := hfinal.unique (hopens _ (hread _ hclosing))
    cases hsame
    show D.spans haystack (.concat (.atom start) (.concat (.group level.expr)
      (.concat (.atom stop) .empty))) i j ↔ _
    constructor
    · rintro ⟨k, hk, l, hl, m, hm, rfl⟩
      obtain ⟨rfl, rfl⟩ := (hstartSpans haystack i k).mp hk
      obtain ⟨rfl, rfl⟩ := (hstopSpans haystack l m).mp hm
      exact ⟨rfl, rfl, hl⟩
    · rintro ⟨rfl, rfl, hspan⟩
      exact ⟨0, (hstartSpans haystack 0 0).mpr ⟨rfl, rfl⟩, haystack.length, hspan,
        haystack.length, (hstopSpans haystack _ _).mpr ⟨rfl, rfl⟩, rfl⟩
  · -- with the closing bracket swallowed, the group stays open
    have hsame := hfinal.unique (hopens _ hswallowed)
    cases hsame

end RegexSyntax
