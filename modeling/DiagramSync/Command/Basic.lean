import DiagramSync.Text.Basic

/-!
What commands act on. Commands are evaluated here and not handed to a system, so
what a validator command answers is a function of what it is given.
-/

namespace DiagramSync.Command

abbrev Bytes := List UInt8

def encode (text : Text) : Bytes :=
  text.flatMap String.utf8EncodeChar

def decode? (bytes : Bytes) : Option Text :=
  (String.fromUTF8? ⟨bytes.toArray⟩).map String.toList

inductive Channel where
  | out
  | err
  deriving Repr, DecidableEq

abbrev Output := List (Channel × Bytes)

namespace Output

def on (channel : Channel) (output : Output) : Bytes :=
  output.flatMap fun (other, bytes) => if other = channel then bytes else []

end Output

structure World where
  files : List (Text × Bytes)
  input : Bytes
  output : Output
  elapsedMs : Nat

namespace World

def write (channel : Channel) (bytes : Bytes) (world : World) : World :=
  { world with output := world.output ++ [(channel, bytes)] }

def complain (message : Text) (world : World) : World :=
  world.write .err (encode (message ++ ['\n']))

def takeInput (world : World) : Bytes × World :=
  (world.input, { world with input := [] })

def file? (world : World) (path : Text) : Option Bytes :=
  if path = "/dev/null".toList then some [] else world.files.lookup path

def read? (world : World) (path : Text) : Option Bytes × World :=
  if path = ['-'] ∨ path = "/dev/stdin".toList then
    let (input, world) := world.takeInput
    (some input, world)
  else
    (world.file? path, world)

def store (path : Text) (bytes : Bytes) (world : World) : World :=
  if path = "/dev/null".toList then world
  else { world with files := (path, bytes) :: world.files.filter fun file => file.1 ≠ path }

/-- More time than any command is given, in milliseconds. -/
def forever : Nat :=
  1000000000000000000000

def wait (milliseconds : Nat) (world : World) : World :=
  { world with elapsedMs := world.elapsedMs + milliseconds }

end World

/-- Gives arguments to a program, which answers with a status and leaves the
world in another state. The status zero is for success. -/
abbrev Program := List Text → World → Nat × World

end DiagramSync.Command
