import IttyBitty.CommandLine.Options

/-!
# Help pages

A help page starts with a usage line that shows every option and the operand of a grammar. Then
come the rows for the operand and the options, each a title with what it means beside it, and in
front of and behind them what else there is to say. All meanings start in one column, which is as
near as the titles allow; a title that reaches into it has its meaning on the next line.
-/

namespace IttyBitty.CommandLine

/-- A title at some distance from the margin, and its meaning. -/
structure HelpRow where
  indent : Nat := 2
  title : String
  summary : Option String
  deriving Repr

namespace HelpRow

/-- The farthest column in which meanings can start. -/
def farthestColumn : Nat := 24

/-- The column in which the meanings of some rows start. -/
def column (rows : List HelpRow) : Nat :=
  min farthestColumn (rows.foldl (fun widest r => max widest (r.indent + r.title.length)) 0 + 2)

/-- Some blanks. -/
def blanks (n : Nat) : String := String.ofList (List.replicate n ' ')

/-- The lines of a row. -/
def lines (column : Nat) (r : HelpRow) : List String :=
  let title := blanks r.indent ++ r.title
  match r.summary with
  | none => [title]
  | some summary =>
    if title.length + 2 ≤ column then [title ++ blanks (column - title.length) ++ summary]
    else [title, blanks column ++ summary]

end HelpRow

namespace OptionSpec

variable {κ : Type}

/-- A name of an option with the name of its value. -/
def withValue (o : OptionSpec κ) (name : Text) : String :=
  match o.valueName with
  | some value => s!"{String.ofList name} {value}"
  | none => String.ofList name

/-- An option in the usage line, without the brackets. -/
def short (o : OptionSpec κ) : String := o.withValue (o.names.headD [])

/-- The row of an option. -/
def row (o : OptionSpec κ) : HelpRow where
  title := ", ".intercalate (o.names.map o.withValue)
  summary := some o.summary

end OptionSpec

namespace Grammar

variable {κ : Type} [DecidableEq κ]

/-- The options in the usage line; those that exclude each other stand together. -/
def shownOptions (g : Grammar κ) : List String :=
  let choices := g.options.filter fun o => g.exclusive.contains o.key
  g.options.filterMap fun o =>
    if !g.exclusive.contains o.key then some s!"[{o.short}]"
    else if (choices.head?.map OptionSpec.key) = some o.key then
      some ("[" ++ " | ".intercalate (choices.map OptionSpec.short) ++ "]")
    else none

/-- The usage line. -/
def usage (g : Grammar κ) (program : String) : String :=
  let operands := if g.takesRest then [g.operand, "..."] else [g.operand]
  s!"usage: {program} " ++ " ".intercalate (g.shownOptions ++ operands)

/-- The help page of a grammar: `about` says what the program does, `operand` what the operand
means, and `closing` stands at the end. -/
def helpPage (g : Grammar κ) (program : String) (about closing : List String)
    (operand : List HelpRow) : String :=
  let options := g.options.map OptionSpec.row
  let column := HelpRow.column (operand ++ options)
  let lines := g.usage program :: "" :: about
    ++ "positional arguments:" :: operand.flatMap (HelpRow.lines column)
    ++ "" :: "options:" :: options.flatMap (HelpRow.lines column)
    ++ closing
  String.join (lines.map (· ++ "\n"))

end Grammar

end IttyBitty.CommandLine
