import IttyBitty.Text.Count
import IttyBitty.Text.Quoted

/-!
# Command-line options

A grammar says which options a command takes, whether they have values, and what its operand is.
Arguments are first told apart one by one: an option, the two dashes after which everything is an
operand, an operand, or something that looks like an option but is none. Then options and operands
take effect from left to right.

A long option may be cut short as long as no other one starts alike, and may have its value behind
an equals sign. Short options may be joined if all but the last have no values, and a value may
follow its short option directly; an equals sign may stand behind the first of them. Two dashes that
are attached to an option give it no value. A negative number and anything with a space in it are
operands.
-/

namespace IttyBitty.CommandLine

/-- An option: what it is known by, its names, short before long, what its value is called if it has
one, and what it does. -/
structure OptionSpec (κ : Type) where
  key : κ
  names : List Text
  valueName : Option String := none
  summary : String

namespace OptionSpec

variable {κ : Type}

/-- Whether an option has a value. -/
def hasValue (o : OptionSpec κ) : Bool := o.valueName.isSome

/-- The names of an option in error messages. -/
def title (o : OptionSpec κ) : String := String.ofList (List.intercalate ['/'] o.names)

end OptionSpec

/-- What a command takes: options; keys of which only one may be given; keys that end the reading
of the command line; the operand, whether everything behind it belongs to it, and whether it has to
be there. -/
structure Grammar (κ : Type) where
  options : List (OptionSpec κ)
  exclusive : List κ := []
  final : List κ := []
  operand : String
  takesRest : Bool := false
  required : Bool := true

/-- Why a command line cannot be used. -/
inductive UsageError
  | ambiguous (argument : Text) (names : List Text)
  | ignoredValue (option : String) (value : Text)
  | missingValue (option : String)
  | conflict (option other : String)
  | missingOperand (operand : String)
  | invalidChoice (operand : String) (choice : Text) (choices : List Text)
  | unrecognized (arguments : List Text)
  deriving DecidableEq, Repr

/-- The text of an error. -/
def UsageError.message : UsageError → String
  | .ambiguous argument names =>
    let shown := String.ofList (List.intercalate [',', ' '] names)
    s!"ambiguous option: {String.ofList argument} could match {shown}"
  | .ignoredValue option value =>
    s!"argument {option}: ignored explicit argument {String.ofList (RawText.quoted value)}"
  | .missingValue option => s!"argument {option}: expected one argument"
  | .conflict option other => s!"argument {option}: not allowed with argument {other}"
  | .missingOperand operand => s!"the following arguments are required: {operand}"
  | .invalidChoice operand choice choices =>
    let shown := ", ".intercalate (choices.map fun (c : Text) => String.ofList (RawText.quoted c))
    s!"argument {operand}: invalid choice: {String.ofList (RawText.quoted choice)} "
      ++ s!"(choose from {shown})"
  | .unrecognized arguments =>
    let shown := String.ofList (List.intercalate [' '] arguments)
    s!"unrecognized arguments: {shown}"

/-! ## Telling arguments apart -/

/-- What an argument is; an option may have a text attached to its name. -/
inductive Item (κ : Type)
  | operand (argument : Text)
  | separator
  | option (spec : OptionSpec κ) (name : Text) (attached : Option Text) (argument : Text)
  | unknown (argument : Text)

/-- The two dashes. -/
def dashes : Text := ['-', '-']

/-- An item as it was given. -/
def Item.argument {κ : Type} : Item κ → Text
  | .operand argument => argument
  | .separator => dashes
  | .option _ _ _ argument => argument
  | .unknown argument => argument

/-- Whether a text is a run of decimal digits. -/
def isDigits (t : Text) : Bool := !t.isEmpty && t.all fun c => (Text.decimalDigit? c).isSome

/-- Whether a text is a number with or without a decimal point. -/
def isNumber (t : Text) : Bool :=
  match t.span (· != '.') with
  | (whole, []) => isDigits whole
  | (whole, _ :: fraction) => (whole.isEmpty || isDigits whole) && isDigits fraction

/-- The text without the line feed it ends in. -/
def dropFinalNewline (t : Text) : Text := if t.getLast? = some '\n' then t.dropLast else t

/-- Whether an argument is a negative number; a line feed may follow it. -/
def isNegativeNumber : Text → Bool
  | '-' :: t => isNumber t || isNumber (dropFinalNewline t)
  | _ => false

namespace Grammar

variable {κ : Type}

/-- The names of all options with their options. -/
def named (g : Grammar κ) : List (Text × OptionSpec κ) :=
  g.options.flatMap fun o => o.names.map (·, o)

/-- The option of a name. -/
def find? (g : Grammar κ) (name : Text) : Option (OptionSpec κ) := g.named.lookup name

/-- The ways to read an argument that is no option's name: its start may be cut short from long
names, or be a short name with something attached. -/
def readings (g : Grammar κ) (argument : Text) : List (Text × OptionSpec κ × Option Text) :=
  if dashes.isPrefixOf argument then
    let (start, value) := argument.span (· != '=')
    (g.named.filter fun o => start.isPrefixOf o.1).map fun o => (o.1, o.2, value.tail?)
  else
    (g.named.filter fun o => o.1 == argument.take 2).map fun o =>
      (o.1, o.2, some (argument.drop 2))

/-- What an argument is that starts with a dash and is longer than that, if it is no option's
name by itself. -/
def classifyLong (g : Grammar κ) (argument : Text) : Except UsageError (Item κ) :=
  let (name, value) := argument.span (· != '=')
  match value, g.find? name with
  | _ :: value, some o => .ok (.option o name (some value) argument)
  | _, _ =>
    match g.readings argument with
    | [(name, o, attached)] => .ok (.option o name attached argument)
    | [] =>
      if isNegativeNumber argument || argument.contains ' ' then .ok (.operand argument)
      else .ok (.unknown argument)
    | several => .error (.ambiguous argument (several.map (·.1)))

/-- What an argument is, other than the two dashes. -/
def classify (g : Grammar κ) (argument : Text) : Except UsageError (Item κ) :=
  match argument with
  | '-' :: rest =>
    match g.find? argument with
    | some o => .ok (.option o argument none argument)
    | none => if rest.isEmpty then .ok (.operand argument) else g.classifyLong argument
  | _ => .ok (.operand argument)

/-- What the arguments of a command line are. -/
def classifyAll (g : Grammar κ) : List Text → Except UsageError (List (Item κ))
  | [] => .ok []
  | argument :: rest =>
    if argument = dashes then .ok (.separator :: rest.map .operand)
    else do
      let item ← g.classify argument
      let items ← g.classifyAll rest
      return item :: items

/-! ## Joined options -/

/-- What an option argument comes to: options without values, and then possibly an option with the
text attached to it, or an option whose value is the next argument. -/
structure Cluster (κ : Type) where
  flags : List (OptionSpec κ)
  valued : Option (OptionSpec κ × Text) := none
  awaiting : Option (OptionSpec κ) := none

/-- Reads what is attached to a short option; `flags` holds the options before it, last first. What
is attached to an option without a value has to start with the letter of another short option. -/
def cluster (g : Grammar κ) (flags : List (OptionSpec κ)) (o : OptionSpec κ) :
    Text → Except UsageError (Cluster κ)
  | [] =>
    if o.hasValue then .ok { flags := flags.reverse, valued := some (o, []) }
    else .error (.ignoredValue o.title [])
  | c :: rest =>
    if o.hasValue then .ok { flags := flags.reverse, valued := some (o, c :: rest) }
    else
      match g.find? ['-', c], rest with
      | none, _ => .error (.ignoredValue o.title (c :: rest))
      | some next, [] =>
        if next.hasValue then .ok { flags := (o :: flags).reverse, awaiting := some next }
        else .ok { flags := (next :: o :: flags).reverse }
      | some next, d :: rest => g.cluster (o :: flags) next (d :: rest)

/-- What an option argument comes to. -/
def expand (g : Grammar κ) (o : OptionSpec κ) (name : Text) :
    Option Text → Except UsageError (Cluster κ)
  | none => if o.hasValue then .ok { flags := [], awaiting := some o } else .ok { flags := [o] }
  | some attached =>
    if dashes.isPrefixOf name && !o.hasValue then .error (.ignoredValue o.title attached)
    else g.cluster [] o attached

/-! ## Effects -/

/-- The value that a text gives to an option: two dashes give none. -/
def valueOf (t : Text) : Option Text := if t = dashes then none else some t

/-- What has taken effect: options with their values, latest first; the operand with what belongs
to it; and arguments that nothing has taken. -/
structure Effects (κ : Type) where
  options : List (κ × Option Text) := []
  operand : Option (List Text) := none
  extras : List Text := []

/-- Why the reading of a command line stops: an error, or an option that asks for something else. -/
inductive Stop (κ : Type)
  | usage (error : UsageError)
  | asked (key : κ)

variable [DecidableEq κ]

/-- Takes an option into effect. -/
def take (g : Grammar κ) (e : Effects κ) (o : OptionSpec κ) (value : Option Text) :
    Except (Stop κ) (Effects κ) :=
  let others := g.options.filter fun other =>
    other.key != o.key && g.exclusive.contains other.key && e.options.any (·.1 == other.key)
  match g.exclusive.contains o.key, others with
  | true, other :: _ => .error (.usage (.conflict o.title other.title))
  | _, _ =>
    if g.final.contains o.key then .error (.asked o.key)
    else .ok { e with options := (o.key, value) :: e.options }

/-- Takes the options of a cluster into effect; the next argument is there for an option that
awaits its value. -/
def takeCluster (g : Grammar κ) (e : Effects κ) (c : Cluster κ) (next : Option Text) :
    Except (Stop κ) (Effects κ) := do
  let valued ← match c.valued, c.awaiting, next with
    | some valued, _, _ => pure (some valued)
    | none, some o, some value => pure (some (o, value))
    | none, some o, none => throw (.usage (.missingValue o.title))
    | none, none, _ => pure none
  let e ← c.flags.foldlM (fun e o => g.take e o none) e
  match valued with
  | some (o, value) => g.take e o (valueOf value)
  | none => return e

/-- Takes an operand, and what belongs to it, into effect; a second operand has no use. -/
def takeOperand (e : Effects κ) (arguments : List Text) : Effects κ :=
  if e.operand.isSome then { e with extras := e.extras ++ arguments }
  else { e with operand := some arguments }

/-- Takes items into effect from left to right. Two dashes next to the operand say nothing, but an
operand that takes the rest takes them too. -/
def effects (g : Grammar κ) (e : Effects κ) : List (Item κ) → Except (Stop κ) (Effects κ)
  | [] => .ok e
  | .unknown argument :: rest => g.effects { e with extras := e.extras ++ [argument] } rest
  | .option o name attached _ :: .operand value :: rest => do
    let c ← (g.expand o name attached).mapError .usage
    if c.awaiting.isSome then
      let e ← g.takeCluster e c (some value)
      g.effects e rest
    else
      let e ← g.takeCluster e c none
      g.effects e (.operand value :: rest)
  | .option o name attached _ :: rest => do
    let c ← (g.expand o name attached).mapError .usage
    let e ← g.takeCluster e c none
    g.effects e rest
  | .operand argument :: .separator :: rest =>
    if e.operand.isSome then g.effects (takeOperand e [argument]) (.separator :: rest)
    else if g.takesRest then
      .ok (takeOperand e (argument :: dashes :: rest.map Item.argument))
    else g.effects (takeOperand e [argument]) rest
  | .operand argument :: rest =>
    if g.takesRest && e.operand.isNone then
      .ok (takeOperand e (argument :: rest.map Item.argument))
    else g.effects (takeOperand e [argument]) rest
  | .separator :: .operand argument :: rest =>
    if e.operand.isSome then
      g.effects { e with extras := e.extras ++ [dashes] } (.operand argument :: rest)
    else if g.takesRest then
      .ok (takeOperand e (dashes :: argument :: rest.map Item.argument))
    else g.effects (takeOperand e [argument]) rest
  | .separator :: rest => g.effects { e with extras := e.extras ++ [dashes] } rest

/-- What a command line comes to. -/
def read (g : Grammar κ) (arguments : List Text) : Except (Stop κ) (Effects κ) := do
  let items ← (g.classifyAll arguments).mapError .usage
  let e ← g.effects {} items
  if g.required && e.operand.isNone then throw (.usage (.missingOperand g.operand))
  return e

end Grammar

namespace Grammar.Effects

variable {κ : Type} [DecidableEq κ]

/-- Whether an option was given. -/
def has (e : Effects κ) (key : κ) : Bool := e.options.any (·.1 == key)

/-- How often an option was given. -/
def count (e : Effects κ) (key : κ) : Nat := e.options.countP (·.1 == key)

/-- The latest value of an option, if it was given with one. -/
def value? (e : Effects κ) (key : κ) : Option Text := (e.options.lookup key).join

end Grammar.Effects

end IttyBitty.CommandLine
