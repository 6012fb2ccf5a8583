import IttyBitty.Proofs.Ibcmc.Programs

/-!
# The lines that a tree records

A tree says how many tokens each of its nodes is written with, and so which token
each of them starts with. Every statement records the line of that token, at any
depth. The block that is the body of a function does not: the line is taken behind
its opening brace, and unlike that of a block that stands as a statement it is
never set right (`lines_recorded`, `body_recorded_behind_brace`).
-/

namespace IttyBitty.Ibcmc

/-- The line that a statement records. -/
def Stmt.line : Stmt → Int
  | .block _ line | .assign _ _ line | .compound _ _ _ line | .decl _ line | .init _ _ line
  | .function _ _ _ _ line | .expr _ line | .empty line => line

/-! ## Nodes -/

/-- A node that records a line, behind a number of tokens: a statement, or the block
that is the body of a function, with its braces. -/
inductive Node
  | statement (first : Nat) (s : Stmt)
  | body (first : Nat) (body : List Stmt) (line : Int)

/-- The number of tokens in front of a function's body. -/
def bodyStart (first : Nat) (d : Decl) (params : List Decl) : Nat :=
  first + (d.flatten.length + (flattenParams params).length + 2)

mutual

/-- The nodes that a statement holds if it stands behind a number of tokens. -/
def Stmt.heldNodes (first : Nat) : Stmt → List Node
  | .block body _ => nodesAll (first + 1) body
  | .function d params body bodyLine _ =>
    .body (bodyStart first d params) body bodyLine :: nodesAll (bodyStart first d params + 1) body
  | _ => []

/-- The nodes of some statements, each in front of those that it holds. -/
def nodesAll (first : Nat) : List Stmt → List Node
  | [] => []
  | s :: body =>
    .statement first s :: (s.heldNodes first ++ nodesAll (first + s.flatten.length) body)

end

/-- The nodes of a program. -/
def Block.nodes (b : Block) : List Node := nodesAll 0 b.body

/-! ## What the nodes record -/

/-- A node is written with the tokens from its first one on, and records a line of
theirs: a statement that of its first token, which is the opening brace of a block,
and the body of a function that of the token behind its opening brace. -/
inductive Recorded (tokens : List Token) : Node → Prop
  | statement {front own rest : List Token} {first : Token} {s : Stmt}
      (htokens : tokens = front ++ first :: (own ++ rest)) (hown : IsStmt (first :: own) s)
      (hbrace : ∀ body line, s = .block body line → first.kind = .leftBrace)
      (hline : s.line = first.line) : Recorded tokens (.statement front.length s)
  | body {front own rest : List Token} {opening inner closing : Token} {body : List Stmt}
      (htokens : tokens = front ++ opening :: (own ++ closing :: rest))
      (hopening : opening.kind = .leftBrace) (hown : IsStmts own body)
      (hclosing : closing.kind = .rightBrace) (hinner : (own ++ [closing]).head? = some inner) :
      Recorded tokens (.body front.length body inner.line)

theorem lineOf_append {ts : List Token} (h : ts ≠ []) (us : List Token) :
    lineOf (ts ++ us) = lineOf ts := by
  obtain ⟨t, ts, rfl⟩ := List.exists_cons_of_ne_nil h
  rfl

theorem IsDecl.ne_nil {d : Decl} {ts : List Token} (h : IsDecl ts d) : ts ≠ [] := by
  obtain ⟨t, ts, rfl, -⟩ := Parser.isDecl_head h
  exact List.cons_ne_nil t ts

theorem IsExpr.ne_nil {e : Expr} {ts : List Token} (h : IsExpr ts e) : ts ≠ [] := by
  cases h <;> simp

/-- **A statement is on the line of its first token**, whichever form it has. -/
theorem IsStmt.line_eq {s : Stmt} {ts : List Token} (h : IsStmt ts s) : s.line = lineOf ts := by
  cases h with
  | empty | assign | compound | block => rfl
  | decl hdecl | init hdecl | function hdecl => exact (lineOf_append hdecl.ne_nil _).symm
  | expr hvalue => exact (lineOf_append hvalue.ne_nil _).symm

/-- A block that stands as a statement starts with its opening brace. -/
theorem IsStmt.opening {body : List Stmt} {line : Int} {ts : List Token}
    (h : IsStmt ts (.block body line)) : ∀ t ∈ ts.head?, t.kind = .leftBrace := by
  cases h with
  | block hopening => exact fun t ht => Option.mem_some.mp ht ▸ hopening

theorem IsStmt.recorded_first {s : Stmt} {own : List Token} (h : IsStmt own s)
    (front rest : List Token) : Recorded (front ++ own ++ rest) (.statement front.length s) := by
  have hline := h.line_eq
  obtain ⟨first, own, rfl, -⟩ := Parser.isStmt_head h
  have htokens : front ++ (first :: own) ++ rest = front ++ first :: (own ++ rest) := by simp
  refine .statement htokens h ?_ hline
  rintro body line rfl
  exact h.opening first rfl

/-- The body of a function in front of some tokens, and its nodes. -/
theorem IsStmts.recorded_body {body : List Stmt} {own rest : List Token} {opening closing : Token}
    (front : List Token) (hown : IsStmts own body) (hopening : opening.kind = .leftBrace)
    (hclosing : closing.kind = .rightBrace) :
    Recorded (front ++ opening :: (own ++ closing :: rest))
      (.body front.length body (lineOf (own ++ [closing]))) := by
  cases own with
  | nil => exact .body rfl hopening hown hclosing rfl
  | cons inner own => exact .body rfl hopening hown hclosing rfl

theorem IsDecl.bodyStart_eq {d : Decl} {params : List Decl} {ts us : List Token}
    (hdecl : IsDecl ts d) (front : List Token) (left right : Token)
    (hparams : IsParamList us params) :
    bodyStart front.length d params = (front ++ (ts ++ left :: (us ++ [right]))).length := by
  rw [bodyStart, hdecl.flatten_eq, hparams.flatten_eq]
  simp only [List.length_append, List.length_cons, List.length_nil, List.length_map]
  omega

mutual

/-- Every node that a statement holds records what it should, wherever the statement
stands. -/
theorem IsStmt.recorded_held {s : Stmt} {own : List Token} (front rest : List Token) :
    IsStmt own s → ∀ node ∈ s.heldNodes front.length, Recorded (front ++ own ++ rest) node
  | .empty _ | .decl .. | .init .. | .assign .. | .compound .. | .expr .. =>
      fun _ hnode => absurd hnode List.not_mem_nil
  | @IsStmt.block vs opening closing body hopening hbody hclosing => by
      have hnodes := hbody.recorded (front ++ [opening]) (closing :: rest)
      simpa [Stmt.heldNodes] using hnodes
  | @IsStmt.function ts us vs left right opening closing d params body hdecl hleft hparams hright
      hopening hbody hclosing => by
      have htokens :
          front ++ (ts ++ left :: (us ++ right :: opening :: (vs ++ [closing]))) ++ rest =
            front ++ (ts ++ left :: (us ++ [right])) ++ opening :: (vs ++ closing :: rest) := by
        simp
      rw [Stmt.heldNodes, List.forall_mem_cons, hdecl.bodyStart_eq front left right hparams,
        htokens]
      generalize front ++ (ts ++ left :: (us ++ [right])) = inner
      have hnodes := hbody.recorded (inner ++ [opening]) (closing :: rest)
      exact ⟨hbody.recorded_body inner hopening hclosing, by simpa using hnodes⟩

/-- Every node of statements that stand one behind another records what it should. -/
theorem IsStmts.recorded {body : List Stmt} {own : List Token} (front rest : List Token) :
    IsStmts own body → ∀ node ∈ nodesAll front.length body, Recorded (front ++ own ++ rest) node
  | .nil => fun _ hnode => absurd hnode List.not_mem_nil
  | @IsStmts.cons ts us s body hstmt hrest => by
      have hfirst := hstmt.recorded_first front (us ++ rest)
      have hheld := hstmt.recorded_held front (us ++ rest)
      have hmore := hrest.recorded (front ++ ts) rest
      rw [nodesAll, List.forall_mem_cons, List.forall_mem_append, hstmt.flatten_eq, List.length_map,
        ← List.length_append]
      simp only [List.append_assoc] at hfirst hheld hmore ⊢
      exact ⟨hfirst, hheld, hmore⟩

end

/-- **Every node of a tree, at any depth, records a line of the tokens it is written
with.** A statement records the line of its first token, and a block that stands as a
statement that of its opening brace; but the body of a function records the line of
the token behind its brace, and the program that of the first token of the text. -/
theorem lines_recorded {t : Text} {b : Block} (h : parse t = .ok b) :
    ∃ tokens, tokenize t = .ok (tokens ++ [endToken t]) ∧
      b.line = lineOf (tokens ++ [endToken t]) ∧ ∀ node ∈ b.nodes, Recorded tokens node := by
  obtain ⟨tokens, hscans, hbody, hline⟩ := (parse_eq_ok_iff t b).mp h
  refine ⟨tokens, hscans.tokenize_eq_ok, hline, fun node hnode => ?_⟩
  have hrecorded := hbody.recorded [] [] node hnode
  rwa [List.nil_append, List.append_nil] at hrecorded

/-- A block with an empty statement on its second line. -/
theorem lines_recorded_block :
    let t := "\x7b\n;\x7d".toList
    let tree : Block := ⟨[.block [.empty 2] 1], 1⟩
    parse t = .ok tree ∧ ∃ tokens, tokenize t = .ok (tokens ++ [endToken t]) ∧
      tree.line = lineOf (tokens ++ [endToken t]) ∧ ∀ node ∈ tree.nodes, Recorded tokens node := by
  intro t tree
  have htokens : tokenize t = .ok [⟨.leftBrace, .text ['\x7b'], 1, 1⟩, ⟨.semi, .text [';'], 2, 1⟩,
      ⟨.rightBrace, .text ['\x7d'], 2, 2⟩, ⟨.endOfInput, .text [], 2, 3⟩] := by
    decide +kernel
  have hparse : parse t = .ok tree := by
    rw [parse, htokens]
    rfl
  exact ⟨hparse, lines_recorded hparse⟩

/-- The body of this function opens on the second line, and records the third. -/
theorem body_recorded_behind_brace :
    let t := "void f()\n\x7b\n;\n\x7d".toList
    ∃ b tokens, parse t = .ok b ∧ tokenize t = .ok tokens ∧ .body 4 [.empty 3] 3 ∈ b.nodes ∧
      tokens[4]?.map (fun token => (token.kind, token.line)) = some (.leftBrace, 2) := by
  intro t
  let tree : Block := ⟨[.function ⟨false, .void, .text ['f']⟩ [] [.empty 3] 3 1], 1⟩
  have htokens : tokenize t = .ok [⟨.kwVoid, .text "void".toList, 1, 1⟩,
      ⟨.ident, .text ['f'], 1, 6⟩, ⟨.leftParen, .text ['('], 1, 7⟩, ⟨.rightParen, .text [')'], 1, 8⟩,
      ⟨.leftBrace, .text ['\x7b'], 2, 1⟩, ⟨.semi, .text [';'], 3, 1⟩,
      ⟨.rightBrace, .text ['\x7d'], 4, 1⟩, ⟨.endOfInput, .text [], 4, 2⟩] := by
    decide +kernel
  have hparse : parse t = .ok tree := by
    rw [parse, htokens]
    rfl
  exact ⟨tree, _, hparse, htokens, List.mem_cons_of_mem _ List.mem_cons_self, rfl⟩

end IttyBitty.Ibcmc
