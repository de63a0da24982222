import DiagramSync.Command.Basic

/-!
Conditions: the program `test`, which answers with its status.
-/

namespace DiagramSync.Command

namespace Condition

inductive Flaw where
  | notNumber (argument : Text)
  | unexpected (argument : Text)
  | noBracket
  deriving Repr, DecidableEq

namespace Flaw

def message : Flaw → Text
  | .notNumber argument => "Illegal number: ".toList ++ argument
  | .unexpected argument => argument ++ ": unexpected operator".toList
  | .noBracket => "missing ]".toList

end Flaw

def integer (text : Text) : Except Flaw Int :=
  match (String.ofList (Text.trim text)).toInt? with
  | some n => .ok n
  | none => .error (.notNumber text)

def comparison? (op : Text) : Option (Int → Int → Bool) :=
  match String.ofList op with
  | "-eq" => some fun first second => first == second
  | "-ne" => some fun first second => first != second
  | "-lt" => some fun first second => first < second
  | "-le" => some fun first second => first ≤ second
  | "-gt" => some fun first second => second < first
  | "-ge" => some fun first second => second ≤ first
  | _ => none

def unary? (world : World) (op argument : Text) : Option Bool :=
  let isFile := (world.file? argument).isSome
  match String.ofList op with
  | "-n" => some (!argument.isEmpty)
  | "-z" => some argument.isEmpty
  | "-e" | "-r" | "-w" => some isFile
  | "-f" => some (isFile && argument != "/dev/null".toList)
  | "-s" => some (((world.file? argument).map fun bytes => !bytes.isEmpty).getD false)
  | "-d" | "-x" | "-h" | "-L" | "-p" | "-t" => some false
  | _ => none

def binary? (first op second : Text) : Option (Except Flaw Bool) :=
  match String.ofList op with
  | "=" => some (.ok (first == second))
  | "!=" => some (.ok (first != second))
  | _ =>
    (comparison? op).map fun compare => do
      return compare (← integer first) (← integer second)

def simple (world : World) : List Text → Except Flaw Bool
  | [] => .ok false
  | [argument] => .ok !argument.isEmpty
  | [op, argument] =>
    if op = ['!'] then .ok argument.isEmpty
    else
      match unary? world op argument with
      | some holds => .ok holds
      | none => .error (.unexpected argument)
  | [first, op, second] =>
    match binary? first op second with
    | some answer => answer
    | none =>
      if first = ['!'] then (simple world [op, second]).map not else .error (.unexpected op)
  | first :: second :: rest =>
    if first = ['!'] then (simple world (second :: rest)).map not
    else .error (.unexpected second)

/-- Conditions joined with `-o`, and within these with `-a`. -/
def holds (world : World) (args : List Text) : Except Flaw Bool := do
  if args.length ≤ 3 then
    simple world args
  else
    let holding ← (args.splitOn "-o".toList).mapM fun alternative => do
      let parts ← (alternative.splitOn "-a".toList).mapM (simple world)
      return parts.all id
    return holding.any id

/-- Answers with zero if the condition holds, with one if it does not, and with two
if there is none. -/
def answer (name : String) (result : Except Flaw Bool) (world : World) : Nat × World :=
  match result with
  | .ok true => (0, world)
  | .ok false => (1, world)
  | .error flaw => (2, world.complain (s!"sh: 1: {name}: ".toList ++ flaw.message))

end Condition

def test : Program := fun args world =>
  Condition.answer "test" (Condition.holds world args) world

def testBracket : Program := fun args world =>
  let result :=
    match args.reverse with
    | [']'] :: rest => Condition.holds world rest.reverse
    | _ => .error .noBracket
  Condition.answer "[" result world

end DiagramSync.Command
