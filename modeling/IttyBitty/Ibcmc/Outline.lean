import IttyBitty.Ibcmc.Tree

/-!
# Outlines

The outline of a tree has a line for every statement, indented by two spaces for every statement
around it. It shows everything in the tree but the lines of blocks.
-/

namespace IttyBitty.Ibcmc

/-- The margin of a depth; there is none below zero. -/
def margin (depth : Int) : String := String.ofList (List.replicate (2 * depth.toNat) ' ')

/-- What a line says of a statement that holds no others. -/
def Stmt.label : Stmt → String
  | .block .. => "Block"
  | .assign name value line => s!"Assign {name.written} = {value.text}  @L{line}"
  | .compound name op value line =>
    s!"CompoundAssign {name.written} {op.spelling}= {value.text}  @L{line}"
  | .decl d line => s!"Decl {d.text}  @L{line}"
  | .init d value line => s!"Init {d.text} = {value.text}  @L{line}"
  | .function d params _ _ line =>
    let shown := ", ".intercalate (params.map Decl.text)
    s!"Function {d.text}({shown})  @L{line}"
  | .expr value line => s!"Expr {value.text}  @L{line}"
  | .empty line => s!"Empty  @L{line}"

mutual

/-- The lines of a statement, after those in `done`. -/
def Stmt.outlineFrom (depth : Int) (done : Array String) (s : Stmt) : Array String :=
  let done := done.push (margin depth ++ s.label)
  match s with
  | .block body _ => Stmt.outlinesFrom (depth + 1) done body
  | .function _ _ body _ _ =>
    Stmt.outlinesFrom (depth + 2) (done.push (margin (depth + 1) ++ "Block")) body
  | _ => done

/-- The lines of some statements, after those in `done`. -/
def Stmt.outlinesFrom (depth : Int) (done : Array String) : List Stmt → Array String
  | [] => done
  | s :: rest => Stmt.outlinesFrom depth (Stmt.outlineFrom depth done s) rest

end

/-- The lines of a program. -/
def Block.outlineLines (b : Block) (depth : Int) : List String :=
  (Stmt.outlineFrom depth #[] (.block b.body b.line)).toList

/-- The outline of a program. -/
def Block.outline (b : Block) (depth : Int) : String := "\n".intercalate (b.outlineLines depth)

end IttyBitty.Ibcmc
