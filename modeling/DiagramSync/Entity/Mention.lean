import DiagramSync.Entity.Declaration
import DiagramSync.Entity.Phrase
import DiagramSync.Text.Alphanumeric

/-!
Mentions of relationships in the prose about an entity: a phrase of the
vocabulary, at most three filler words, and the name of a known entity.
-/

namespace DiagramSync

inductive Mention where
  | resolved (target : String) (phrase : Phrase)
  | unresolved (phrase : Phrase) (reference : String)
  deriving Repr, DecidableEq

namespace Mention

def plainProse (body : Text) : Text :=
  Text.remove (fun c => c == '\x60' || c == '*')
    (Text.replaceAll "__".toList [] (Text.replaceAll "**".toList [] body))

def afterPhrase? (text : Text) (phrase : Phrase) : Option Text :=
  match Text.stripPrefixNoCase? phrase.text.toList text with
  | some rest => if Text.endsWord rest then some rest else none
  | none => none

def phrase? (text : Text) : Option (Phrase × Text) :=
  Phrase.all.findSome? fun phrase =>
    (afterPhrase? text phrase).map fun rest => (phrase, rest)

def nameAt? (known : List String) (text : Text) : Option (String × Text) :=
  known.findSome? fun name =>
    match Text.stripPrefix? name.toList text with
    | some rest => if Text.endsWord rest then some (name, rest) else none
    | none => none

def describe (word : Text) : String :=
  if word.isEmpty then "end of sentence" else String.ofList word

/-- Looks for a known name behind at most `fillers` filler words. Returns the
name and what follows it, or the first word that is neither. -/
def resolve (known : List String) : (fillers : Nat) → Text → Except String (String × Text)
  | fillers, text =>
    let text := Text.trimStart text
    match nameAt? known text with
    | some found => .ok found
    | none =>
      let word := text.takeWhile Text.isAlphanumeric
      match fillers with
      | 0 => .error (describe word)
      | fillers + 1 =>
        if Phrase.isFiller word then
          resolve known fillers (text.dropWhile Text.isAlphanumeric)
        else
          .error (describe word)

def at? (known : List String) (text : Text) : Option (Mention × Text) :=
  match phrase? text with
  | some (phrase, rest) =>
    match resolve known Phrase.fillerLimit rest with
    | .ok (target, rest) => some (.resolved target phrase, rest)
    | .error reference => some (.unresolved phrase reference, rest)
  | none => none

/-- The mentions in a text. `wordStart` says whether a word may begin where the
text does; `skip` counts the characters of the last mention left. -/
def scan (known : List String) (wordStart : Bool) (skip : Nat) : Text → List Mention
  | [] => []
  | c :: cs =>
    match skip with
    | skip + 1 => scan known (!Text.continuesWord c) skip cs
    | 0 =>
      match if wordStart then at? known (c :: cs) else none with
      | some (mention, rest) =>
        mention :: scan known (!Text.continuesWord c) (cs.length - rest.length) cs
      | none => scan known (!Text.continuesWord c) 0 cs

def all (known : List String) (body : Text) : List Mention :=
  scan known true 0 (plainProse body)

end Mention
end DiagramSync
