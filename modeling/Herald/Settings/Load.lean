import Herald.Settings.Document

/-!
# Loading settings

Settings come from a file, and the environment may set the number of threads. Without a file the
defaults hold, and a file with nothing but blanks in it counts as none.
-/
namespace Herald

/-- What there is where the file of the settings should be. -/
inductive SettingsFile where
  /-- nothing -/
  | missing
  /-- something that is no file -/
  | directory
  /-- a file with this content -/
  | content (bytes : ByteArray)

namespace Settings

def parse (text : String) : Except Refusal Settings :=
  if Text.isAllBlank text then .ok default
  else
    match Yaml.documentOf text with
    | none => .error .unreadableText
    | some none => .ok default
    | some (some document) =>
      match ofDocument? document with
      | some settings => .ok settings
      | none => .error .unreadableText

def ofFile : SettingsFile → Except Refusal Settings
  | .missing => .ok default
  | .directory => .error .unreadableFile
  | .content bytes =>
    match String.fromUTF8? bytes with
    | some text => parse text
    | none => .error .unreadableFile

/-- The settings that a file and the environment give, once they are found to be usable. -/
def load (file : SettingsFile) (environment : String → Option String) :
    Except Refusal Settings := do
  let written ← ofFile file
  let settings ← written.applyOverrides environment
  settings.validate
  pure settings

end Settings
end Herald
