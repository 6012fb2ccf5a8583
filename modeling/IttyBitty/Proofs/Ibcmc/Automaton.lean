import IttyBitty.Ibcmc.Tree
import Mathlib.Data.List.Infix

/-!
# What may come next

Blocks are all that nests in IBCMC, so what may stand behind some tokens depends on the
number of braces that are open and on the place inside the current statement. A state
holds these two; every kind of token leads on to one state or to none.

From every state there is a way back to the start, but for the one behind a parameter
that is declared `void` (`State.completion`); no tokens without such a parameter lead
there (`plain_of_run`).
-/

namespace IttyBitty.Ibcmc

/-- The places inside a statement. -/
inductive Stage
  /-- Where a statement starts or a block ends. -/
  | statement
  /-- Behind the name that starts a statement. -/
  | name
  /-- Where a term is due. -/
  | term
  /-- Behind a term. -/
  | operator
  /-- Behind the `const` that starts a statement. -/
  | const
  /-- Behind the type that starts a declaration. -/
  | type (type : TypeName)
  /-- Behind the declared name. -/
  | declared (type : TypeName)
  /-- Behind the parenthesis that opens the parameters. -/
  | params
  /-- Behind a comma between parameters. -/
  | param
  /-- Behind the `const` of a parameter. -/
  | paramConst
  /-- Behind the type of a parameter. -/
  | paramType (type : TypeName)
  /-- Behind the name of a parameter. -/
  | paramName (type : TypeName)
  /-- Behind the parenthesis that closes the parameters. -/
  | body
  deriving DecidableEq

/-- The number of open braces, and the place inside the statement. -/
structure State where
  depth : Nat
  stage : Stage
  deriving DecidableEq

namespace State

/-- Where a program starts, and where it may end. -/
def start : State := ⟨0, .statement⟩

/-- The state behind a token of some kind. Nothing may stand behind a `void` parameter,
and the end of the input leads nowhere. -/
def next (s : State) (kind : Kind) : Option State :=
  match s.stage, kind with
  | .statement, .semi => some ⟨s.depth, .statement⟩
  | .statement, .kwConst => some ⟨s.depth, .const⟩
  | .statement, .kwInt => some ⟨s.depth, .type .int⟩
  | .statement, .kwVoid => some ⟨s.depth, .type .void⟩
  | .statement, .ident => some ⟨s.depth, .name⟩
  | .statement, .intLiteral => some ⟨s.depth, .operator⟩
  | .statement, .leftBrace => some ⟨s.depth + 1, .statement⟩
  | .statement, .rightBrace => if s.depth = 0 then none else some ⟨s.depth - 1, .statement⟩
  | .name, .assign => some ⟨s.depth, .term⟩
  | .name, .plusAssign => some ⟨s.depth, .term⟩
  | .name, .minusAssign => some ⟨s.depth, .term⟩
  | .name, .plus => some ⟨s.depth, .term⟩
  | .name, .minus => some ⟨s.depth, .term⟩
  | .name, .semi => some ⟨s.depth, .statement⟩
  | .term, .ident => some ⟨s.depth, .operator⟩
  | .term, .intLiteral => some ⟨s.depth, .operator⟩
  | .operator, .plus => some ⟨s.depth, .term⟩
  | .operator, .minus => some ⟨s.depth, .term⟩
  | .operator, .semi => some ⟨s.depth, .statement⟩
  | .const, .kwInt => some ⟨s.depth, .type .int⟩
  | .const, .kwVoid => some ⟨s.depth, .type .void⟩
  | .type type, .ident => some ⟨s.depth, .declared type⟩
  | .declared .int, .semi => some ⟨s.depth, .statement⟩
  | .declared .int, .assign => some ⟨s.depth, .term⟩
  | .declared _, .leftParen => some ⟨s.depth, .params⟩
  | .params, .rightParen => some ⟨s.depth, .body⟩
  | .params, .kwConst => some ⟨s.depth, .paramConst⟩
  | .params, .kwInt => some ⟨s.depth, .paramType .int⟩
  | .params, .kwVoid => some ⟨s.depth, .paramType .void⟩
  | .param, .kwConst => some ⟨s.depth, .paramConst⟩
  | .param, .kwInt => some ⟨s.depth, .paramType .int⟩
  | .param, .kwVoid => some ⟨s.depth, .paramType .void⟩
  | .paramConst, .kwInt => some ⟨s.depth, .paramType .int⟩
  | .paramConst, .kwVoid => some ⟨s.depth, .paramType .void⟩
  | .paramType type, .ident => some ⟨s.depth, .paramName type⟩
  | .paramName .int, .comma => some ⟨s.depth, .param⟩
  | .paramName .int, .rightParen => some ⟨s.depth, .body⟩
  | .body, .leftBrace => some ⟨s.depth + 1, .statement⟩
  | _, _ => none

/-- The state behind tokens of some kinds. -/
def run (s : State) : List Kind → Option State
  | [] => some s
  | kind :: kinds => s.next kind >>= fun s' => s'.run kinds

/-- No token of the kind can stand in the state; only the start may be the end. -/
def Refuses (s : State) (kind : Kind) : Prop :=
  s.next kind = none ∧ (s = start → kind ≠ .endOfInput)

theorem run_append (s : State) (kinds more : List Kind) :
    s.run (kinds ++ more) = s.run kinds >>= fun s' => s'.run more := by
  induction kinds generalizing s with
  | nil => rfl
  | cons kind kinds ih =>
      rw [List.cons_append, run, run]
      cases s.next kind with
      | none => rfl
      | some s' => exact ih s'

theorem next_endOfInput (s : State) : s.next .endOfInput = none := by
  obtain ⟨depth, stage⟩ := s
  cases stage with
  | declared type => cases type <;> rfl
  | paramName type => cases type <;> rfl
  | _ => rfl

/-! ## The way back -/

/-- A state that the parameters declared `void` do not lead to. -/
def Plain (s : State) : Prop := s.stage ≠ .paramType .void ∧ s.stage ≠ .paramName .void

/-- Kinds that end the current statement. -/
def toStatement : Stage → List Kind
  | .statement => []
  | .name | .operator => [.semi]
  | .term => [.ident, .semi]
  | .const => [.kwInt, .ident, .semi]
  | .type _ => [.ident, .leftParen, .rightParen, .leftBrace, .rightBrace]
  | .declared _ => [.leftParen, .rightParen, .leftBrace, .rightBrace]
  | .params => [.rightParen, .leftBrace, .rightBrace]
  | .param | .paramConst => [.kwInt, .ident, .rightParen, .leftBrace, .rightBrace]
  | .paramType _ => [.ident, .rightParen, .leftBrace, .rightBrace]
  | .paramName _ => [.rightParen, .leftBrace, .rightBrace]
  | .body => [.leftBrace, .rightBrace]

theorem run_toStatement {s : State} (h : s.Plain) :
    s.run (toStatement s.stage) = some ⟨s.depth, .statement⟩ := by
  obtain ⟨depth, stage⟩ := s
  obtain ⟨htype, hname⟩ := h
  cases stage with
  | paramType type =>
      cases type with
      | int => rfl
      | void => exact absurd rfl htype
  | paramName type =>
      cases type with
      | int => rfl
      | void => exact absurd rfl hname
  | type type => cases type <;> rfl
  | declared type => cases type <;> rfl
  | _ => rfl

theorem run_closing (depth : Nat) :
    (⟨depth, .statement⟩ : State).run (List.replicate depth .rightBrace) = some start := by
  induction depth with
  | zero => rfl
  | succ depth ih => exact ih

/-- **From every plain state there is a way back to the start.** -/
theorem completion {s : State} (h : s.Plain) : ∃ kinds, s.run kinds = some start := by
  refine ⟨toStatement s.stage ++ List.replicate s.depth .rightBrace, ?_⟩
  rw [run_append, run_toStatement h]
  exact run_closing s.depth

/-! ## Parameters that are not `void` -/

/-- No `void` stands behind what opens a parameter, nor behind a `const` there. -/
def NoVoidParameter (kinds : List Kind) : Prop :=
  ∀ opening ∈ [Kind.leftParen, .comma],
    ¬ [opening, .kwVoid] <:+: kinds ∧ ¬ [opening, .kwConst, .kwVoid] <:+: kinds

theorem NoVoidParameter.of_append {kinds more : List Kind} (h : NoVoidParameter (kinds ++ more)) :
    NoVoidParameter kinds := by
  intro opening hopening
  obtain ⟨hvoid, hconst⟩ := h opening hopening
  have hprefix := (List.prefix_append kinds more).isInfix
  exact ⟨fun h => hvoid (h.trans hprefix), fun h => hconst (h.trans hprefix)⟩

/-- The kinds that stand in front of a place inside the parameters. -/
def Precedes (kinds : List Kind) : Stage → Prop
  | .params => [.leftParen] <:+ kinds
  | .param => [.comma] <:+ kinds
  | .paramConst => ∃ opening ∈ [Kind.leftParen, .comma], [opening, .kwConst] <:+ kinds
  | .paramType .void | .paramName .void => False
  | _ => True

/-- A token leads on to places that what stands in front of them precedes. -/
theorem precedes_next {s s' : State} {kinds : List Kind} {kind : Kind}
    (hvoid : NoVoidParameter (kinds ++ [kind])) (h : Precedes kinds s.stage)
    (hnext : s.next kind = some s') : Precedes (kinds ++ [kind]) s'.stage := by
  have hbehind {opening : List Kind} (hopening : opening <:+ kinds) :
      opening ++ [kind] <:+ kinds ++ [kind] := by
    obtain ⟨front, rfl⟩ := hopening
    exact ⟨front, (List.append_assoc _ _ _).symm⟩
  unfold next at hnext
  split at hnext
  -- a block that ends
  case h_8 =>
    split at hnext <;> cases hnext
    trivial
  -- what opens a parameter
  case h_25 | h_36 =>
    cases hnext
    exact List.suffix_append _ _
  -- `const` behind it
  case h_27 hstage =>
    cases hnext
    rw [hstage] at h
    exact ⟨.leftParen, by decide, hbehind h⟩
  case h_30 hstage =>
    cases hnext
    rw [hstage] at h
    exact ⟨.comma, by decide, hbehind h⟩
  -- `void` behind either
  case h_29 hstage =>
    rw [hstage] at h
    exact absurd (hbehind h).isInfix (hvoid .leftParen (by decide)).1
  case h_32 hstage =>
    rw [hstage] at h
    exact absurd (hbehind h).isInfix (hvoid .comma (by decide)).1
  case h_34 hstage =>
    rw [hstage] at h
    obtain ⟨opening, hopening, h⟩ := h
    exact absurd (hbehind h).isInfix (hvoid opening hopening).2
  -- the name of a parameter
  case h_35 type hstage =>
    cases hnext
    rw [hstage] at h
    cases type with
    | int => trivial
    | void => exact h
  case h_39 => cases hnext
  all_goals
    cases hnext
    trivial

theorem precedes_run {s s' : State} {kinds more : List Kind}
    (hvoid : NoVoidParameter (kinds ++ more)) (h : Precedes kinds s.stage)
    (hrun : s.run more = some s') : Precedes (kinds ++ more) s'.stage := by
  induction more generalizing s kinds with
  | nil =>
      cases hrun
      rwa [List.append_nil]
  | cons kind more ih =>
      rw [run] at hrun
      obtain ⟨s₁, hnext, hrun⟩ := Option.bind_eq_some_iff.mp hrun
      rw [List.append_cons] at hvoid ⊢
      exact ih hvoid (precedes_next hvoid.of_append h hnext) hrun

/-- **Without `void` parameters only plain states are reached.** -/
theorem plain_of_run {s : State} {kinds : List Kind} (hvoid : NoVoidParameter kinds)
    (hrun : start.run kinds = some s) : s.Plain := by
  have hstart : Precedes [] start.stage := trivial
  have h : Precedes ([] ++ kinds) s.stage := precedes_run hvoid hstart hrun
  constructor
  · intro hstage
    rw [hstage] at h
    exact h
  · intro hstage
    rw [hstage] at h
    exact h

end State

end IttyBitty.Ibcmc
