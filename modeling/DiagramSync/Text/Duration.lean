/-!
Lengths of time as messages write them.
-/

namespace DiagramSync.Duration

def decimals (thousandths : Nat) : String :=
  let digits :=
    [thousandths / 100 % 10, thousandths / 10 % 10, thousandths % 10].map Nat.digitChar
  let needed := (digits.reverse.dropWhile (· == '0')).reverse
  if needed.isEmpty then "" else "." ++ String.ofList needed

def text (milliseconds : Nat) : String :=
  if milliseconds = 0 then
    "0ns"
  else if milliseconds < 1000 then
    s!"{milliseconds}ms"
  else
    s!"{milliseconds / 1000}{decimals (milliseconds % 1000)}s"

end DiagramSync.Duration
