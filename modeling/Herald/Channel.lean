import Herald.NameSet
import Herald.Text.Blank
import Herald.Text.Inspect

/-!
# Channels

A channel is a name, and an expression stands for a set of channels:

- `@all` is every channel and `!@all` is none;
- `user,admin` is the channels in the list;
- `!user,admin` is every channel but those in the list.

Blanks around an expression and around each name in it do not count, nor do empty names in a list.
An expression of blanks only names the channel with the empty name. A listener hears a dispatch when
the two sets have a channel in common.
-/
namespace Herald

/-- The expression for every channel. -/
def allChannels : String := "@all"

def noChannels : String := "!@all"

/-- A set of channels, as expressions can name it. -/
inductive Channels where
  /-- every channel -/
  | everywhere
  /-- no channel -/
  | nowhere
  /-- the channels listed -/
  | among (names : NameSet)
  /-- every channel but those listed -/
  | allBut (names : NameSet)
  deriving DecidableEq

namespace Channels

/-- The names of a comma-separated list, trimmed, without the empty ones. -/
def listedNames (cs : List Char) : List String :=
  ((cs.splitOn ',').map Text.trimChars |>.filter (!·.isEmpty)).map String.ofList

/-- The set that a list names, or the set of all others. A list that holds the name for every
channel takes in all of them, and one that holds no name at all stands for no channel. -/
def ofList (exclude : Bool) (listed : List String) : Channels :=
  if listed.contains allChannels then
    if exclude then nowhere else everywhere
  else if listed.isEmpty then nowhere
  else if exclude then allBut (NameSet.ofList listed)
  else among (NameSet.ofList listed)

def ofTrimmed (cs : List Char) : Channels :=
  if cs = allChannels.toList then everywhere
  else if cs = noChannels.toList then nowhere
  else match cs with
    | [] => among (NameSet.ofList [""])
    | '!' :: rest => ofList true (listedNames rest)
    | _ => ofList false (listedNames cs)

def parse (expression : String) : Channels := ofTrimmed (Text.trimChars expression.toList)

def contains (s : Channels) (channel : String) : Bool :=
  match s with
  | everywhere => true
  | nowhere => false
  | among names => names.contains channel
  | allBut names => !names.contains channel

/-- Whether a listener on the channels `own` hears a dispatch to the channels `requested`. -/
def listensTo (own requested : Channels) : Bool :=
  match own, requested with
  | nowhere, _ => false
  | _, nowhere => false
  | everywhere, _ => true
  | _, everywhere => true
  | among names, other => names.names.any other.contains
  | allBut names, among wanted => wanted.names.any (allBut names).contains
  | allBut _, allBut _ => true

/-- Whether the set says which channels to leave out; the empty set counts as leaving out all. -/
def isExclude : Channels → Bool
  | allBut _ => true
  | nowhere => true
  | _ => false

/-- The channels that the set names, in ascending order. -/
def channels : Channels → List String
  | everywhere => [allChannels]
  | nowhere => []
  | among names => names.names
  | allBut names => names.names

def inspect : Channels → String
  | everywhere => "All"
  | nowhere => "None"
  | among names => Text.caseText "Include" [Text.bracesText (names.names.map Text.quoted)]
  | allBut names => Text.caseText "Exclude" [Text.bracesText (names.names.map Text.quoted)]

end Channels
end Herald
